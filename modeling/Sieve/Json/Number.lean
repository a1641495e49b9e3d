import Sieve.Decimal.Reading
import Sieve.Json.Basic

namespace Sieve.Json

-- A number as it is written. `exponent` is 0 where none is written; `isWhole` says that neither
-- a point nor an exponent is.
structure Numeral where
  negative : Bool
  whole : List Char
  fraction : List Char
  exponent : Int
  isWhole : Bool

-- One more than the largest integer of 64 bits.
def wordBound : Nat := 18446744073709551616

-- How far integers reach below zero.
def signedBound : Nat := 9223372036854775808

-- Appends digits to a significand as long as it stays within 64 bits.
def takeFitting (significand : Nat) : List Char → Nat × List Char
  | [] => (significand, [])
  | c :: rest =>
    let longer := 10 * significand + (c.toNat - '0'.toNat)
    if longer < wordBound then takeFitting longer rest else (significand, c :: rest)

-- Multiplies by a power of ten in steps that a double can hold. Three steps suffice downwards,
-- since they take any significand to zero.
def scale : Nat → Float → Int → Option Float
  | 0, x, _ => some x
  | steps + 1, x, exponent =>
    if exponent.natAbs ≤ 308 then
      let power := Float.ofScientific 1 false exponent.natAbs
      if exponent < 0 then some (x / power)
      else if (x * power).isFinite then some (x * power)
      else none
    else if x == 0 then some x
    else if 0 < exponent then none
    else scale steps (x / Float.ofScientific 1 false 308) (exponent + 308)

-- The double of a numeral, without its sign: the digits that fit 64 bits, rounded once, and then
-- scaled. Digits that do not fit are dropped, those before the point leaving a power of ten.
def Numeral.magnitude? (n : Numeral) : Option Float :=
  let (leading, dropped) := takeFitting 0 n.whole
  let (significand, unread) := takeFitting leading n.fraction
  let places : Int := n.fraction.length - unread.length
  scale 4 (Float.ofNat significand) (n.exponent + dropped.length - places)

-- A whole numeral within 64 bits is an integer, except that a negative zero is a double.
def Numeral.number? (n : Numeral) : Option Number :=
  let whole := Nat.ofDigitChars 10 n.whole 0
  if n.isWhole && !n.negative && whole < wordBound then some (.integer whole)
  else if n.isWhole && n.negative && 0 < whole && whole ≤ signedBound then
    some (.integer (-whole))
  else n.magnitude?.map fun x => .double (if n.negative then -x else x)

-- Reads an exponent part off the front, if there is one.
def takeExponent : List Char → Option (Option Int × List Char)
  | c :: rest =>
    if c = 'e' ∨ c = 'E' then
      let (negative, rest) := Decimal.takeSign rest
      let (digits, rest) := Decimal.takeDigits rest
      if digits.isEmpty then none
      else
        let n : Int := Nat.ofDigitChars 10 digits 0
        some (some (if negative then -n else n), rest)
    else some (none, c :: rest)
  | [] => some (none, [])

-- Reads a fraction off the front, if there is one: a point and at least one digit.
def takeFraction : List Char → Option (List Char × List Char)
  | '.' :: rest =>
    let (digits, rest) := Decimal.takeDigits rest
    if digits.isEmpty then none else some (digits, rest)
  | cs => some ([], cs)

-- Reads a number off the front. The digits before the point start with a zero only if they are
-- one zero.
def takeNumeral (cs : List Char) : Option (Numeral × List Char) := do
  let (negative, cs) :=
    match cs with
    | '-' :: rest => (true, rest)
    | _ => (false, cs)
  let (whole, rest) := Decimal.takeDigits cs
  if whole.isEmpty || (whole.head? == some '0' && 1 < whole.length) then none
  let (fraction, rest) ← takeFraction rest
  let (exponent, rest) ← takeExponent rest
  let isWhole := fraction.isEmpty && exponent.isNone
  return (⟨negative, whole, fraction, exponent.getD 0, isWhole⟩, rest)

end Sieve.Json

import Sieve.Decimal.Integer

namespace Sieve.Decimal

-- The double nearest to `digits * 10 ^ exponent`. Exponents beyond any double are settled at
-- once, so that no power of ten grows with the text.
def nearestFloat (digits : Nat) (exponent : Int) : Float :=
  let magnitude := exponent + (natDigits digits).length
  if digits == 0 then 0
  else if 400 < magnitude then Float.ofScientific 1 false 400
  else if magnitude < -400 then 0
  else Float.ofScientific digits (exponent < 0) exponent.natAbs

-- Takes the longest run of digits off the front.
def takeDigits (cs : List Char) : List Char × List Char :=
  (cs.takeWhile isDigit, cs.dropWhile isDigit)

-- The exponent part: nothing, or `e` and a signed integer.
def readExponent : List Char → Option Int
  | [] => some 0
  | c :: rest => if c = 'e' ∨ c = 'E' then readInt rest else none

-- Digits with an optional point and an optional exponent, at least one digit beside the point.
def readUnsigned (cs : List Char) : Option Float :=
  let (whole, rest) := takeDigits cs
  let (fraction, rest) :=
    match rest with
    | '.' :: rest => takeDigits rest
    | _ => ([], rest)
  if whole.isEmpty && fraction.isEmpty then none
  else
    (readExponent rest).map fun exponent =>
      nearestFloat (Nat.ofDigitChars 10 (whole ++ fraction) 0) (exponent - fraction.length)

-- The words for the values that are no numbers, in any case of their letters.
def readWord (cs : List Char) : Option Float :=
  let word := cs.map Char.toLower
  if word == ['i', 'n', 'f'] || word == ['i', 'n', 'f', 'i', 'n', 'i', 't', 'y'] then some (1 / 0)
  else if word == ['n', 'a', 'n'] then some (0 / 0)
  else none

def readFloat (cs : List Char) : Option Float :=
  let (negative, rest) := takeSign cs
  (readUnsigned rest <|> readWord rest).map fun x => if negative then -x else x

end Sieve.Decimal

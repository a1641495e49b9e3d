import Sieve.Decimal.Integer
import Sieve.Decimal.Shortest

namespace Sieve.Decimal

-- How a format writes a double: which of two nearest candidates it takes, for which exponents of
-- the first digit it needs no exponent, what it appends to a whole number, and its texts for the
-- values that are no numbers.
structure Layout where
  tie : Tie
  isPositional : Int → Bool
  wholeEnd : String
  nan : String
  infinity : String

-- Digits with a point at the place of the exponent, zeros filled in.
def positional (wholeEnd : String) (s : Scientific) : List Char :=
  let digits := natDigits s.digits
  if 0 ≤ s.exponent then digits ++ List.replicate s.exponent.toNat '0' ++ wholeEnd.toList
  else
    let places := s.exponent.natAbs
    if places < digits.length then
      digits.take (digits.length - places) ++ '.' :: digits.drop (digits.length - places)
    else ['0', '.'] ++ List.replicate (places - digits.length) '0' ++ digits

-- One digit before the point, and a signed exponent.
def exponential (s : Scientific) : List Char :=
  let digits := natDigits s.digits
  let first := s.exponent + digits.length - 1
  let fraction := if digits.length ≤ 1 then [] else '.' :: digits.drop 1
  digits.take 1 ++ fraction ++ ['e', if first < 0 then '-' else '+'] ++ natDigits first.natAbs

def Layout.render (layout : Layout) (x : Float) : String :=
  let sign := if isNegative x then "-" else ""
  match magnitude x with
  | .nan => layout.nan
  | .infinite => sign ++ layout.infinity
  | .zero => sign ++ "0" ++ layout.wholeEnd
  | .finite b =>
    let s := b.shortest layout.tie
    let first := s.exponent + (natDigits s.digits).length - 1
    sign ++ String.ofList
      (if layout.isPositional first then positional layout.wholeEnd s else exponential s)

-- Plain text never has an exponent, and a whole number stands without a point.
def plain : Layout where
  tie := .up
  isPositional _ := true
  wholeEnd := ""
  nan := "NaN"
  infinity := "inf"

def renderFloat (x : Float) : String :=
  plain.render x

end Sieve.Decimal

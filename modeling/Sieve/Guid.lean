import Sieve.Text.Blank

namespace Sieve

-- A 128 bit identifier.
structure Guid where
  bits : BitVec 128
  deriving DecidableEq

namespace Guid

instance : Ord Guid where
  compare a b := compare a.bits.toNat b.bits.toNat

def hexDigits : List Char :=
  ['0', '1', '2', '3', '4', '5', '6', '7', '8', '9', 'a', 'b', 'c', 'd', 'e', 'f']

-- The lowest `count` hexadecimal digits of a number, highest first.
def lowHex : Nat → Nat → List Char
  | 0, _ => []
  | count + 1, n => lowHex count (n / 16) ++ [hexDigits.getD (n % 16) '0']

-- Groups of 8, 4, 4, 4 and 12 lower-case digits.
def digits (g : Guid) : List Char :=
  let n := g.bits.toNat
  lowHex 8 (n >>> 96) ++ ['-'] ++ lowHex 4 (n >>> 80) ++ ['-'] ++ lowHex 4 (n >>> 64) ++
    ['-'] ++ lowHex 4 (n >>> 48) ++ ['-'] ++ lowHex 12 n

def render (g : Guid) : String :=
  String.ofList g.digits

def hexValue? (c : Char) : Option Nat :=
  hexDigits.findIdx? (· == c.toLower)

def readHex (value : Nat) : List Char → Option Nat
  | [] => some value
  | c :: rest => (hexValue? c).bind fun d => readHex (16 * value + d) rest

-- Reads 32 digits without separators.
def readPlain (cs : List Char) : Option Guid :=
  if cs.length = 32 then (readHex 0 cs).map fun n => ⟨BitVec.ofNat 128 n⟩ else none

-- Reads the five groups with their dashes.
def readGrouped (cs : List Char) : Option Guid :=
  let dashes := [8, 13, 18, 23].all fun i => cs[i]? == some '-'
  if cs.length = 36 && dashes then
    readPlain (cs.take 8 ++ (cs.drop 9).take 4 ++ (cs.drop 14).take 4 ++ (cs.drop 19).take 4 ++
      cs.drop 24)
  else none

-- Reads any of the accepted forms: plain, grouped, grouped in braces, grouped after `urn:uuid:`.
def read (cs : List Char) : Option Guid :=
  let inBraces :=
    if cs.length = 38 && cs.head? == some '\x7b' && cs.getLast? == some '\x7d' then
      readGrouped ((cs.drop 1).take 36)
    else none
  let asUrn :=
    if (cs.take 9).map Char.toLower == ['u', 'r', 'n', ':', 'u', 'u', 'i', 'd', ':'] then
      readGrouped (cs.drop 9)
    else none
  readPlain cs <|> readGrouped cs <|> inBraces <|> asUrn

end Guid

end Sieve

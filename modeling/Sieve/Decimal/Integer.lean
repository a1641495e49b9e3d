namespace Sieve.Decimal

-- The ten ASCII digits, and no digit of another script.
def isDigit (c : Char) : Bool :=
  '0' ≤ c && c ≤ '9'

def natDigits (n : Nat) : List Char :=
  Nat.toDigits 10 n

def intDigits (i : Int) : List Char :=
  if i < 0 then '-' :: natDigits i.natAbs else natDigits i.natAbs

-- At least `width` digits, with leading zeros.
def paddedDigits (width n : Nat) : List Char :=
  let digits := natDigits n
  List.replicate (width - digits.length) '0' ++ digits

def renderNat (n : Nat) : String :=
  String.ofList (natDigits n)

def renderInt (i : Int) : String :=
  String.ofList (intDigits i)

-- Reads one or more digits and nothing else.
def readNat (cs : List Char) : Option Nat :=
  if !cs.isEmpty && cs.all isDigit then some (Nat.ofDigitChars 10 cs 0) else none

-- Takes one optional sign off the front; true stands for a minus.
def takeSign : List Char → Bool × List Char
  | '-' :: rest => (true, rest)
  | '+' :: rest => (false, rest)
  | cs => (false, cs)

def readInt (cs : List Char) : Option Int :=
  let (negative, digits) := takeSign cs
  (readNat digits).map fun n => if negative then -(n : Int) else n

end Sieve.Decimal

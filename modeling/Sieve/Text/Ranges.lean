namespace Sieve.Text

-- A set of characters, given by inclusive ranges of code points.
abbrev CharRanges := List (Nat × Nat)

def CharRanges.covers (ranges : CharRanges) (c : Char) : Bool :=
  ranges.any fun range => range.1 ≤ c.toNat && c.toNat ≤ range.2

end Sieve.Text

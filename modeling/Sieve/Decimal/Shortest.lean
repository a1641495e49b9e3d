namespace Sieve.Decimal

-- The positive number `mantissa * 2 ^ exponent`. The doubles next to it are `2 ^ exponent` away,
-- except that below a power of two they lie twice as close; `closeBelow` says so.
structure Binary where
  mantissa : Nat
  exponent : Int
  closeBelow : Bool

-- What a double stands for, its sign aside.
inductive Magnitude where
  | nan
  | infinite
  | zero
  | finite (b : Binary)

def isNegative (x : Float) : Bool :=
  x.toBits.toNat >>> 63 == 1

-- The leading bit that doubles have beyond the 52 that are stored.
def hiddenBit : Nat := 4503599627370496

def magnitude (x : Float) : Magnitude :=
  let bits := x.toBits.toNat
  let fraction := bits % hiddenBit
  match bits / hiddenBit % 2048 with
  | 0 => if fraction == 0 then .zero else .finite ⟨fraction, -1074, false⟩
  | 2047 => if fraction == 0 then .infinite else .nan
  | biased + 1 => .finite ⟨hiddenBit + fraction, biased - 1074, fraction == 0 && biased != 0⟩

-- Which of two equally near candidates to take.
inductive Tie where
  | up
  | even

-- The number `digits * 10 ^ exponent`.
structure Scientific where
  digits : Nat
  exponent : Int

-- Looks for a multiple of `10 ^ k` that a reader rounds back to `b`, the nearer one if both
-- neighbours of `b` do. Everything is measured in quarters of `2 ^ b.exponent`, then brought to
-- a common denominator `unit` with `10 ^ k`. An even mantissa owns the ends of its interval.
def Binary.onGrid (tie : Tie) (b : Binary) (k : Int) : Option Nat :=
  let quarter := Nat.pow 2 (b.exponent - 2).toNat * Nat.pow 10 (-k).toNat
  let unit := Nat.pow 2 (2 - b.exponent).toNat * Nat.pow 10 k.toNat
  let value := 4 * b.mantissa * quarter
  let low := value - (if b.closeBelow then 1 else 2) * quarter
  let high := value + 2 * quarter
  let inside (n : Nat) : Bool :=
    if b.mantissa % 2 == 0 then low ≤ n && n ≤ high else low < n && n < high
  let floor := value / unit
  match inside (floor * unit), inside ((floor + 1) * unit) with
  | true, true =>
    match compare (2 * (value - floor * unit)) unit, tie with
    | .lt, _ => some floor
    | .gt, _ => some (floor + 1)
    | .eq, .up => some (floor + 1)
    | .eq, .even => some (if floor % 2 == 0 then floor else floor + 1)
  | true, false => some floor
  | false, true => some (floor + 1)
  | false, false => none

-- Tries grids from coarse to fine, `steps` of them at most.
def Binary.search (tie : Tie) (b : Binary) : Nat → Int → Scientific
  | 0, k => ⟨0, k⟩
  | steps + 1, k =>
    match b.onGrid tie k with
    | some digits => ⟨digits, k⟩
    | none => b.search tie steps (k - 1)

-- The fewest digits that read back as `b`. The first grid tried is coarser than `b` itself, and
-- the search ends at 17 significant digits at the latest, where the grid is finer than the
-- interval of `b`.
def Binary.shortest (tie : Tie) (b : Binary) : Scientific :=
  let log2 := (b.mantissa.log2 : Int) + b.exponent
  b.search tie 24 (((log2 + 1) * 30103).fdiv 100000 + 2)

end Sieve.Decimal

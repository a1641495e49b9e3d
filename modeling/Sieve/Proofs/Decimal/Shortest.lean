import Sieve.Decimal.Shortest
import Sieve.Proofs.Double.Scientific

-- What a double is made of, and that the fewest digits for it are rounded back to it.
namespace Sieve.Decimal

open Double (ulp scaled Covers Canonical)
open Float.Model (UnpackedFloat Format)
open Float.Model.UnpackedFloat hiding pack unpack

variable {b : Binary} {tie : Tie} {k : Int} {d : Nat} {s : Sign}

theorem toNat_unpackMantissa (bits : BitVec Format.binary64.numBits) :
    (unpackMantissa bits).toNat = bits.toNat % hiddenBit := by
  simp only [unpackMantissa, BitVec.toNat_cast, BitVec.extractLsb_toNat, Nat.shiftRight_zero]
  rfl

theorem toNat_unpackExponent (bits : BitVec Format.binary64.numBits) :
    (unpackExponent bits).toNat = bits.toNat / hiddenBit % 2048 := by
  simp only [unpackExponent, BitVec.toNat_cast, BitVec.extractLsb_toNat,
    Nat.shiftRight_eq_div_pow]
  rfl

theorem ofBitVec_unpackSign (bits : BitVec Format.binary64.numBits) :
    Sign.ofBitVec (unpackSign bits) =
      if bits.toNat >>> 63 == 1 then Sign.negative else Sign.positive := by
  have htop : bits.toNat >>> 63 < 2 := by
    have hword : bits.toNat < 2 ^ 64 := bits.isLt
    rw [Nat.shiftRight_eq_div_pow]
    omega
  have hbit : (unpackSign bits).toNat = bits.toNat >>> 63 := by
    simp only [unpackSign, BitVec.toNat_cast, BitVec.extractLsb_toNat]
    exact Nat.mod_eq_of_lt htop
  simp only [Sign.ofBitVec, ← BitVec.toNat_inj, hbit]
  interval_cases bits.toNat >>> 63 <;> rfl

def sign (x : Float) : Sign :=
  if isNegative x then .negative else .positive

theorem magnitude_eq {x : Float} {first fraction : Nat}
    (hfirst : x.toBits.toNat / hiddenBit % 2048 = first)
    (hfraction : x.toBits.toNat % hiddenBit = fraction) :
    magnitude x =
      if first = 2047 then if fraction = 0 then .infinite else .nan
      else if first = 0 then if fraction = 0 then .zero else .finite ⟨fraction, -1074, false⟩
      else .finite ⟨2 ^ 52 + fraction, first - 1075, fraction == 0 && first != 1⟩ := by
  simp only [magnitude, hfirst, hfraction, beq_iff_eq]
  split
  · rfl
  · rfl
  · rename_i biased hne
    have hfinite : biased + 1 ≠ 2047 := fun h => hne (by omega)
    have hexponent : ((biased + 1 : Nat) : Int) - 1075 = biased - 1074 := by omega
    have hclose : (biased + 1 != 1) = (biased != 0) := by simp
    rw [if_neg hfinite, if_neg (Nat.succ_ne_zero biased), hexponent, hclose]
    rfl

-- The parts of a double, its sign given apart.
inductive Stores (s : Sign) : Magnitude → UnpackedFloat → Prop where
  | nan : Stores s .nan .notANumber
  | infinite : Stores s .infinite (.infinity s)
  | zero : Stores s .zero (.zero s)
  | finite {b : Binary} (hm : 0 < b.mantissa)
      (hclose : b.closeBelow = true ↔ b.mantissa = 2 ^ 52 ∧ b.exponent ≠ -1074) :
      Stores s (.finite b) (.finite s b.mantissa b.exponent hm)

theorem stores_magnitude (x : Float) : Stores (sign x) (magnitude x) x.toModel.unpack := by
  obtain ⟨bits, hbits⟩ : ∃ bits : BitVec Format.binary64.numBits,
      bits = x.toModel.toBits.toBitVec := ⟨_, rfl⟩
  have hunpack : x.toModel.unpack = UnpackedFloat.unpack .binary64 bits := by
    rw [hbits]
    rfl
  have hnat : x.toBits.toNat = bits.toNat := by
    rw [hbits]
    rfl
  have hsign : sign x = Sign.ofBitVec (unpackSign bits) := by
    rw [ofBitVec_unpackSign, sign, isNegative, hnat]
  have hfraction : (unpackMantissa bits).toNat < 2 ^ 52 := (unpackMantissa bits).isLt
  rw [hunpack, Double.unpack_eq, hsign, magnitude_eq (hnat ▸ (toNat_unpackExponent bits).symm)
    (hnat ▸ (toNat_unpackMantissa bits).symm)]
  split
  · split
    · exact .infinite
    · exact .nan
  · split
    · split
      · exact .zero
      · refine .finite (b := ⟨_, -1074, false⟩) _ ?_
        simp only [hfraction.ne, false_and, Bool.false_eq_true]
    · refine .finite (b := ⟨2 ^ 52 + _, _, _⟩) _ ?_
      dsimp only
      rw [Bool.and_eq_true, beq_iff_eq, bne_iff_ne]
      omega

namespace Binary

-- One quarter of the last digit of a double, and a digit of a grid, on a scale where both are whole.
def quarter (b : Binary) (k : Int) : Nat :=
  2 ^ (b.exponent - 2).toNat * 10 ^ (-k).toNat

def unit (b : Binary) (k : Int) : Nat :=
  2 ^ (2 - b.exponent).toNat * 10 ^ k.toNat

def quartersBelow (b : Binary) : Nat :=
  if b.closeBelow then 1 else 2

-- Whether a point of the grid lies where numbers are rounded to the double.
def isInside (b : Binary) (k : Int) (d : Nat) : Bool :=
  let low := 4 * b.mantissa * b.quarter k - b.quartersBelow * b.quarter k
  let high := 4 * b.mantissa * b.quarter k + 2 * b.quarter k
  if b.mantissa % 2 == 0 then low ≤ d * b.unit k && d * b.unit k ≤ high
  else low < d * b.unit k && d * b.unit k < high

-- The point of the grid just below a double.
def floor (b : Binary) (k : Int) : Nat :=
  4 * b.mantissa * b.quarter k / b.unit k

-- Of the two points around a double one is taken if it lies inside.
theorem onGrid_cases (tie : Tie) (b : Binary) (k : Int) :
    (∃ d, b.onGrid tie k = some d ∧ b.isInside k d = true) ∨
      (b.onGrid tie k = none ∧ b.isInside k (b.floor k) = false) := by
  unfold onGrid
  dsimp only
  split
  · rename_i hfloor hnext
    have hfloor : b.isInside k (b.floor k) = true := hfloor
    have hnext : b.isInside k (b.floor k + 1) = true := hnext
    split
    · exact .inl ⟨_, rfl, hfloor⟩
    · exact .inl ⟨_, rfl, hnext⟩
    · exact .inl ⟨_, rfl, hnext⟩
    · split
      · exact .inl ⟨_, rfl, hfloor⟩
      · exact .inl ⟨_, rfl, hnext⟩
  · rename_i hfloor _
    exact .inl ⟨_, rfl, hfloor⟩
  · rename_i _ hnext
    exact .inl ⟨_, rfl, hnext⟩
  · rename_i hfloor _
    exact .inr ⟨rfl, hfloor⟩

-- What both measures are multiplied with to be whole.
def scale (b : Binary) (k : Int) : ℚ :=
  2 ^ (2 - b.exponent).toNat * 10 ^ (-k).toNat

theorem scale_pos (b : Binary) (k : Int) : 0 < b.scale k := by
  simp only [scale]
  positivity

theorem quarter_eq (b : Binary) (k : Int) : (b.quarter k : ℚ) = ulp b.exponent / 4 * b.scale k := by
  have hpower := Double.zpow_mul_toNat (b := 2) (by norm_num) (b.exponent - 2)
  rw [Double.two_zpow_sub_two, neg_sub] at hpower
  rw [quarter, scale, Nat.cast_mul, Nat.cast_pow, Nat.cast_pow, Nat.cast_ofNat, Nat.cast_ofNat,
    ← hpower, mul_assoc]

theorem unit_eq (b : Binary) (k : Int) : (b.unit k : ℚ) = 10 ^ k * b.scale k := by
  have hpower := Double.zpow_mul_toNat (b := 10) (by norm_num) k
  rw [unit, scale, Nat.cast_mul, Nat.cast_pow, Nat.cast_pow, Nat.cast_ofNat, Nat.cast_ofNat,
    ← hpower]
  ring

-- A point inside is rounded to the double.
theorem covers_of_isInside (hm : 0 < b.mantissa)
    (hclose : b.closeBelow = true ↔ b.mantissa = 2 ^ 52 ∧ b.exponent ≠ -1074)
    (h : b.isInside k d = true) : Covers b.mantissa b.exponent (d * 10 ^ k) := by
  have hscale := b.scale_pos k
  have hvalue : ((4 * b.mantissa * b.quarter k : Nat) : ℚ) =
      scaled b.mantissa b.exponent * b.scale k := by
    push_cast
    rw [quarter_eq, scaled]
    ring
  have hpoint : ((d * b.unit k : Nat) : ℚ) = d * 10 ^ k * b.scale k := by
    push_cast
    rw [unit_eq, mul_assoc]
  have hlow : ((4 * b.mantissa * b.quarter k - b.quartersBelow * b.quarter k : Nat) : ℚ) =
      (scaled b.mantissa b.exponent -
        ulp b.exponent / (if b.mantissa = 2 ^ 52 ∧ b.exponent ≠ -1074 then 4 else 2)) *
          b.scale k := by
    have hfew : b.quartersBelow ≤ 4 * b.mantissa := by
      rw [quartersBelow]
      split <;> omega
    have hdigit : (b.quartersBelow : ℚ) / 4 =
        1 / (if b.mantissa = 2 ^ 52 ∧ b.exponent ≠ -1074 then 4 else 2) := by
      rw [quartersBelow]
      by_cases hbelow : b.closeBelow = true
      · rw [if_pos hbelow, if_pos (hclose.mp hbelow), Nat.cast_one]
      · rw [if_neg hbelow, if_neg (mt hclose.mpr hbelow)]
        norm_num
    rw [Nat.cast_sub (Nat.mul_le_mul_right _ hfew), hvalue, Nat.cast_mul, quarter_eq,
      div_eq_mul_one_div (ulp b.exponent) (ite _ _ _), ← hdigit]
    ring
  have hhigh : ((4 * b.mantissa * b.quarter k + 2 * b.quarter k : Nat) : ℚ) =
      (scaled b.mantissa b.exponent + ulp b.exponent / 2) * b.scale k := by
    rw [Nat.cast_add, hvalue]
    push_cast
    rw [quarter_eq]
    ring
  have hle {p q : ℚ} {m n : Nat} (hp : (m : ℚ) = p * b.scale k) (hq : (n : ℚ) = q * b.scale k) :
      (m ≤ n ↔ p ≤ q) ∧ (m < n ↔ p < q) := by
    rw [← Nat.cast_le (α := ℚ), ← Nat.cast_lt (α := ℚ), hp, hq, mul_le_mul_iff_left₀ hscale,
      mul_lt_mul_iff_left₀ hscale]
    exact ⟨Iff.rfl, Iff.rfl⟩
  simp only [isInside] at h
  split at h
  · rename_i heven
    rw [Bool.and_eq_true, decide_eq_true_iff, decide_eq_true_iff, (hle hlow hpoint).1,
      (hle hpoint hhigh).1] at h
    refine ⟨h.1, h.2, fun hodd => ?_⟩
    rw [beq_iff_eq] at heven
    omega
  · rw [Bool.and_eq_true, decide_eq_true_iff, decide_eq_true_iff, (hle hlow hpoint).2,
      (hle hpoint hhigh).2] at h
    refine ⟨h.1.le, h.2.le, fun hodd => ⟨?_, h.2⟩⟩
    have hlower := h.1
    rwa [if_neg (fun hpower => absurd hodd (by rw [hpower.1]; decide))] at hlower

-- On a grid that is as fine as a quarter of the last digit, the point below a double lies inside.
theorem isInside_floor (hm : 0 < b.mantissa) (h : b.unit k ≤ b.quarter k) :
    b.isInside k (b.floor k) = true := by
  have hunit : 0 < b.unit k := by
    simp only [unit]
    positivity
  have hbelow : b.floor k * b.unit k ≤ 4 * b.mantissa * b.quarter k := Nat.div_mul_le_self _ _
  have habove : 4 * b.mantissa * b.quarter k < b.floor k * b.unit k + b.unit k :=
    Nat.lt_div_mul_add hunit
  have hone : 0 < b.quartersBelow ∧ b.quartersBelow ≤ 4 * b.mantissa := by
    rw [quartersBelow]
    split <;> omega
  have hquarter : b.quarter k ≤ b.quartersBelow * b.quarter k := Nat.le_mul_of_pos_left _ hone.1
  have hlow : b.quartersBelow * b.quarter k ≤ 4 * b.mantissa * b.quarter k :=
    Nat.mul_le_mul_right _ hone.2
  simp only [isInside]
  split
  · rw [Bool.and_eq_true, decide_eq_true_iff, decide_eq_true_iff]
    omega
  · rw [Bool.and_eq_true, decide_eq_true_iff, decide_eq_true_iff]
    omega

theorem unit_le_quarter (h : (10 : ℚ) ^ k ≤ 2 ^ (b.exponent - 2)) : b.unit k ≤ b.quarter k := by
  have hscale := b.scale_pos k
  have hle : (b.unit k : ℚ) ≤ b.quarter k := by
    rw [unit_eq, quarter_eq, ← Double.two_zpow_sub_two]
    exact mul_le_mul_of_nonneg_right h hscale.le
  exact_mod_cast hle

-- A search finds something if the last of its grids has it.
theorem search_eq (steps : Nat) (k : Int) (h : ∃ d, b.onGrid tie (k - steps) = some d) :
    b.onGrid tie (b.search tie (steps + 1) k).exponent = some (b.search tie (steps + 1) k).digits ∧
      k - steps ≤ (b.search tie (steps + 1) k).exponent ∧
      (b.search tie (steps + 1) k).exponent ≤ k := by
  induction steps generalizing k with
  | zero =>
      obtain ⟨d, hd⟩ := h
      rw [Nat.cast_zero, Int.sub_zero] at hd
      simp [search, hd]
  | succ steps ih =>
      rw [search]
      cases hd : b.onGrid tie k with
      | some d =>
          dsimp only
          exact ⟨hd, by omega, Int.le_refl k⟩
      | none =>
          dsimp only
          have hlast : k - (steps + 1 : Nat) = k - 1 - steps := by omega
          rw [hlast] at h
          obtain ⟨hgrid, hlow, hhigh⟩ := ih (k - 1) h
          exact ⟨hgrid, by omega, by omega⟩

end Binary

theorem ten_pow_le (n : Nat) : 10 ^ n ≤ 2 ^ (10 * (n / 3) + 4 * (n % 3)) := by
  have hthree : 10 ^ 3 ≤ 2 ^ 10 := by decide
  have hone : 10 ≤ 2 ^ 4 := by decide
  calc 10 ^ n = (10 ^ 3) ^ (n / 3) * 10 ^ (n % 3) := by
        rw [← Nat.pow_mul, ← Nat.pow_add, Nat.div_add_mod]
    _ ≤ (2 ^ 10) ^ (n / 3) * (2 ^ 4) ^ (n % 3) :=
        Nat.mul_le_mul (Nat.pow_le_pow_left hthree _) (Nat.pow_le_pow_left hone _)
    _ = 2 ^ (10 * (n / 3) + 4 * (n % 3)) := by rw [← Nat.pow_mul, ← Nat.pow_mul, Nat.pow_add]

theorem le_ten_pow (n : Nat) : 2 ^ (93 * (n / 28) + 3 * (n % 28)) ≤ 10 ^ n := by
  have hmany : 2 ^ 93 ≤ 10 ^ 28 := by decide
  have hone : 2 ^ 3 ≤ 10 := by decide
  calc 2 ^ (93 * (n / 28) + 3 * (n % 28)) = (2 ^ 93) ^ (n / 28) * (2 ^ 3) ^ (n % 28) := by
        rw [← Nat.pow_mul, ← Nat.pow_mul, Nat.pow_add]
    _ ≤ (10 ^ 28) ^ (n / 28) * 10 ^ (n % 28) :=
        Nat.mul_le_mul (Nat.pow_le_pow_left hmany _) (Nat.pow_le_pow_left hone _)
    _ = 10 ^ n := by rw [← Nat.pow_mul, ← Nat.pow_add, Nat.div_add_mod]

theorem two_zpow_le {i : Int} {n : Nat} (h : i ≤ (93 * (n / 28) + 3 * (n % 28) : Nat)) :
    (2 : ℚ) ^ i ≤ 10 ^ (n : Int) := by
  calc (2 : ℚ) ^ i ≤ 2 ^ ((93 * (n / 28) + 3 * (n % 28) : Nat) : Int) :=
        zpow_le_zpow_right₀ (by norm_num) h
    _ ≤ 10 ^ (n : Int) := by
        rw [zpow_natCast, zpow_natCast]
        exact_mod_cast le_ten_pow n

theorem ten_zpow_neg_le {i : Int} {n : Nat} (h : i ≤ (93 * (n / 28) + 3 * (n % 28) : Nat)) :
    (10 : ℚ) ^ (-n : Int) ≤ 2 ^ (-i) := by
  rw [zpow_neg, zpow_neg]
  exact inv_anti₀ (by positivity) (two_zpow_le h)

-- Powers of ten that stay 21 digits below a power of two are smaller by 54 binary digits.
theorem ten_zpow_le {l : Int} (hlow : -1074 ≤ l) (hhigh : l ≤ 1023)
    (h : 100000 * (k + 21) ≤ (l + 1) * 30103) : (10 : ℚ) ^ k ≤ 2 ^ (l - 54) := by
  obtain ⟨n, rfl | rfl⟩ := k.eq_nat_or_neg
  · obtain ⟨j, hj⟩ : ∃ j : Nat, l - 54 = j := ⟨(l - 54).toNat, by omega⟩
    rw [hj, zpow_natCast, zpow_natCast]
    have hpower := (ten_pow_le n).trans (Nat.pow_le_pow_right (by decide)
      (show 10 * (n / 3) + 4 * (n % 3) ≤ j by omega))
    exact_mod_cast hpower
  · have hpower := ten_zpow_neg_le (i := 54 - l) (n := n) (by omega)
    rwa [neg_sub] at hpower

-- The fewest digits for a double are rounded to it, and their exponent has three digits.
theorem Binary.covers_shortest (hcanonical : Canonical b.mantissa b.exponent)
    (hm : 0 < b.mantissa) (he : b.exponent ≤ 971)
    (hclose : b.closeBelow = true ↔ b.mantissa = 2 ^ 52 ∧ b.exponent ≠ -1074) (tie : Tie) :
    Covers b.mantissa b.exponent ((b.shortest tie).digits * 10 ^ (b.shortest tie).exponent) ∧
      (b.shortest tie).exponent.natAbs ≤ 360 := by
  have hleast := hcanonical.least
  have hlog : b.mantissa.log2 < 53 := (Nat.log2_lt hm.ne').mpr hcanonical.short
  obtain ⟨l, hl⟩ : ∃ l : Int, (b.mantissa.log2 : Int) + b.exponent = l := ⟨_, rfl⟩
  obtain ⟨first, hfirst⟩ : ∃ first : Int, ((l + 1) * 30103).fdiv 100000 + 2 = first := ⟨_, rfl⟩
  have hshortest : b.shortest tie = b.search tie 24 first := by
    rw [shortest, hl, hfirst]
  rw [Int.fdiv_eq_ediv_of_nonneg _ (by decide)] at hfirst
  have hfine : (10 : ℚ) ^ (first - 23) ≤ 2 ^ (b.exponent - 2) :=
    (ten_zpow_le (l := l) (by omega) (by omega) (by omega)).trans
      (zpow_le_zpow_right₀ (by norm_num) (by omega))
  have hlast : ∃ d, b.onGrid tie (first - (23 : Nat)) = some d := by
    have hinside := isInside_floor hm (unit_le_quarter hfine)
    rcases onGrid_cases tie b (first - 23) with ⟨d, hd, -⟩ | ⟨-, hnone⟩
    · exact ⟨d, hd⟩
    · rw [hinside] at hnone
      cases hnone
  obtain ⟨hgrid, hlow, hhigh⟩ := search_eq 23 first hlast
  rw [hshortest]
  generalize b.search tie (23 + 1) first = found at hgrid hlow hhigh ⊢
  have hcovers : Covers b.mantissa b.exponent (found.digits * 10 ^ found.exponent) := by
    rcases onGrid_cases tie b found.exponent with ⟨d, hd, hinside⟩ | ⟨hnone, -⟩
    · obtain rfl : d = found.digits := Option.some.inj (hd.symm.trans hgrid)
      exact covers_of_isInside hm hclose hinside
    · rw [hgrid] at hnone
      cases hnone
  exact ⟨hcovers, by omega⟩

end Sieve.Decimal

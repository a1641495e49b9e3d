import Sieve.Proofs.Decimal.Bound
import Sieve.Proofs.Double.Nearest

-- Rounding gives the double that covers a number.
namespace Sieve.Double

open Float.Model (UnpackedFloat Format totalExponent)
open Float.Model.UnpackedFloat hiding pack unpack

variable {m n : Nat} {e f t : Int} {v x rest : ℚ} {s : Sign} {accuracy : Accuracy}
  {em : ExtendedMantissa}

-- What is known of the part behind the last digit.
def Leaves : Accuracy → ℚ → Prop
  | .exact, rest => rest = 0
  | .inexact .lt, rest => 0 < rest ∧ rest < 1 / 2
  | .inexact .eq, rest => rest = 1 / 2
  | .inexact .gt, rest => 1 / 2 < rest ∧ rest < 1

theorem leaves_exact : Leaves .exact 0 :=
  rfl

theorem leaves_accuracyOfFraction (h : m < n) : Leaves (accuracyOfFraction m n) (m / n) := by
  have hn : (0 : ℚ) < n := Nat.cast_pos.mpr (by omega)
  unfold accuracyOfFraction
  split
  · rename_i hzero
    rw [hzero, Nat.cast_zero, zero_div]
    rfl
  · rename_i hpos
    have hm : (0 : ℚ) < m := Nat.cast_pos.mpr (by omega)
    have hlt : (m : ℚ) < n := Nat.cast_lt.mpr h
    rcases lt_trichotomy (2 * m) n with hless | hhalf | hmore
    · have hcast : 2 * (m : ℚ) < n := by exact_mod_cast hless
      rw [compare_lt_iff_lt.mpr hless]
      refine ⟨div_pos hm hn, ?_⟩
      rw [div_lt_iff₀ hn]
      linarith
    · have hcast : 2 * (m : ℚ) = n := by exact_mod_cast hhalf
      rw [compare_eq_iff_eq.mpr hhalf]
      change (m : ℚ) / n = 1 / 2
      rw [div_eq_iff hn.ne']
      linarith
    · have hcast : (n : ℚ) < 2 * m := by exact_mod_cast hmore
      rw [compare_gt_iff_gt.mpr hmore]
      constructor
      · rw [lt_div_iff₀ hn]
        linarith
      · rw [div_lt_iff₀ hn]
        linarith

-- Whether a mantissa with its two further bits stands for a number.
def Describes (em : ExtendedMantissa) (x : ℚ) : Prop :=
  Leaves em.accuracy (x - em.mantissa)

theorem Leaves.describes (h : Leaves accuracy rest) (m : Nat) :
    Describes (.ofMantissaAndAccuracy m accuracy) (m + rest) := by
  rw [← add_sub_cancel_left (m : ℚ) rest] at h
  cases accuracy with
  | exact => exact h
  | inexact order => cases order <;> exact h

namespace Describes

-- Behind the last digit there is nothing, or something that is less than one.
theorem eq_or_within (h : Describes em x) :
    (em.roundBit || em.stickyBit) = false ∧ x = em.mantissa ∨
      (em.roundBit || em.stickyBit) = true ∧ em.mantissa < x ∧ x < em.mantissa + 1 := by
  obtain ⟨m, roundBit, stickyBit⟩ := em
  rcases roundBit with _ | _
  · rcases stickyBit with _ | _
    · exact .inl ⟨rfl, sub_eq_zero.mp h⟩
    · obtain ⟨hlow, hhigh⟩ : 0 < x - m ∧ x - m < 1 / 2 := h
      exact .inr ⟨rfl, by linarith, by linarith⟩
  · rcases stickyBit with _ | _
    · have hhalf : x - m = 1 / 2 := h
      exact .inr ⟨rfl, by linarith, by linarith⟩
    · obtain ⟨hlow, hhigh⟩ : 1 / 2 < x - m ∧ x - m < 1 := h
      exact .inr ⟨rfl, by linarith, by linarith⟩

theorem mantissa_le (h : Describes em x) : em.mantissa ≤ x ∧ x < em.mantissa + 1 := by
  rcases h.eq_or_within with ⟨-, hx⟩ | ⟨-, hlow, hhigh⟩
  · rw [hx]
    exact ⟨le_refl _, lt_add_one _⟩
  · exact ⟨hlow.le, hhigh⟩

theorem shiftRightOne (h : Describes em x) : Describes em.shiftRightOne (x / 2) := by
  obtain ⟨m, roundBit, stickyBit⟩ := em
  have hcast : (m : ℚ) = 2 * (m / 2 : Nat) + (m % 2 : Nat) := by
    exact_mod_cast (Nat.div_add_mod m 2).symm
  change Describes ⟨m / 2, m % 2 != 0, roundBit || stickyBit⟩ (x / 2)
  rcases h.eq_or_within with ⟨hbits, hx⟩ | ⟨hbits, hlow, hhigh⟩
  · dsimp only at hbits hx
    rw [hbits]
    rcases Nat.mod_two_eq_zero_or_one m with hbit | hbit
    · rw [hbit, Nat.cast_zero] at hcast
      rw [hbit]
      change x / 2 - (m / 2 : Nat) = 0
      linarith
    · rw [hbit, Nat.cast_one] at hcast
      rw [hbit]
      change x / 2 - (m / 2 : Nat) = 1 / 2
      linarith
  · dsimp only at hbits hlow hhigh
    rw [hbits]
    rcases Nat.mod_two_eq_zero_or_one m with hbit | hbit
    · rw [hbit, Nat.cast_zero] at hcast
      rw [hbit]
      change 0 < x / 2 - (m / 2 : Nat) ∧ x / 2 - (m / 2 : Nat) < 1 / 2
      constructor <;> linarith
    · rw [hbit, Nat.cast_one] at hcast
      rw [hbit]
      change 1 / 2 < x / 2 - (m / 2 : Nat) ∧ x / 2 - (m / 2 : Nat) < 1
      constructor <;> linarith

theorem shiftRight (h : Describes em x) (n : Nat) : Describes (em >>> n) (x / 2 ^ n) := by
  induction n with
  | zero =>
      rw [pow_zero, div_one]
      exact h
  | succ n ih =>
      rw [pow_succ, ← div_div]
      exact ih.shiftRightOne

-- The rounded mantissa is at most one half away, and less unless it is even.
theorem rounded (h : Describes em x) :
    em.roundedMantissa - 1 / 2 ≤ x ∧ x ≤ em.roundedMantissa + 1 / 2 ∧
      (em.roundedMantissa % 2 = 1 →
        em.roundedMantissa - 1 / 2 < x ∧ x < em.roundedMantissa + 1 / 2) := by
  unfold ExtendedMantissa.roundedMantissa
  unfold Describes Leaves at h
  split at h <;> simp only [Accuracy.roundToNearestEven, *]
  · exact ⟨by linarith, by linarith, fun _ => ⟨by linarith, by linarith⟩⟩
  · exact ⟨by linarith, by linarith, fun _ => ⟨by linarith, by linarith⟩⟩
  · rcases Nat.mod_two_eq_zero_or_one em.mantissa with hbit | hbit
    · rw [hbit]
      exact ⟨by push_cast; linarith, by push_cast; linarith, fun hodd => by omega⟩
    · rw [hbit]
      exact ⟨by push_cast; linarith, by push_cast; linarith, fun hodd => by omega⟩
  · push_cast
    exact ⟨by linarith, by linarith, fun _ => ⟨by linarith, by linarith⟩⟩

end Describes

-- What a number with a sign is rounded to.
inductive RoundsTo (s : Sign) (v : ℚ) : UnpackedFloat → Prop where
  | zero (h : Covers 0 (-1074) v) : RoundsTo s v (.zero s)
  | finite {m : Nat} {e : Int} (hm : 0 < m) (hcanonical : Canonical m e) (h : Covers m e v) :
      RoundsTo s v (.finite s m e hm)

-- Nothing is dropped from 53 digits.
theorem shiftToTargetExponent_of_lt (hm : m < 2 ^ 53) (ht : -1074 ≤ t) :
    shiftToTargetExponent .binary64 m t .exact = (.ofMantissaAndAccuracy m .exact, t) := by
  have hlog : m.log2 ≤ 52 := by
    by_cases hzero : m = 0
    · rw [hzero, Nat.log2_zero]
      decide
    · have hlt := (Nat.log2_lt hzero).mpr hm
      omega
  have htarget : Format.binary64.targetExponent (totalExponent m t) ≤ t := by
    change max (totalExponent m t - 53) (-1074) ≤ t
    simp only [totalExponent]
    omega
  have hshift : (Format.binary64.targetExponent (totalExponent m t) - t).toNat = 0 := by omega
  simp only [UnpackedFloat.shiftToTargetExponent, shiftToExponent, hshift]
  rw [Nat.cast_zero, add_zero]
  rfl

theorem ulp_succ (e : Int) : ulp (e + 1) = 2 * ulp e := by
  rw [ulp, ulp, zpow_add_one₀ (by norm_num), mul_comm]

namespace Describes

theorem covers_roundedMantissa (h : Describes em x) (hfull : t = -1074 ∨ 2 ^ 52 ≤ em.mantissa) :
    Covers em.roundedMantissa t (x * ulp t) := by
  have hpos := ulp_pos t
  have hfloor := h.mantissa_le.1
  have hless := le_roundedMantissa em
  obtain ⟨hlower, hupper, hodd⟩ := h.rounded
  constructor
  · rw [scaled]
    split
    · -- A power of two is rounded to from below only by a carry.
      rename_i hpower
      have hlarge : 2 ^ 52 ≤ em.mantissa := hfull.resolve_left hpower.2
      have heq : em.roundedMantissa = em.mantissa := by omega
      rw [heq]
      nlinarith
    · nlinarith
  · rw [scaled]
    nlinarith
  · intro hbit
    obtain ⟨hstrict, hstrict'⟩ := hodd hbit
    rw [scaled]
    constructor <;> nlinarith

theorem covers_carry (h : Describes em x) (ht : -1074 ≤ t) (hshort : em.mantissa < 2 ^ 53)
    (hcarry : em.roundedMantissa = 2 ^ 53) : Covers (2 ^ 52) (t + 1) (x * ulp t) := by
  have hpos := ulp_pos t
  have hceiling := h.mantissa_le.2
  have hlower := h.rounded.1
  rw [hcarry] at hlower
  have hmantissa : (em.mantissa : ℚ) + 1 ≤ 2 ^ 53 := by exact_mod_cast hshort
  push_cast at hlower
  constructor
  · rw [if_pos ⟨rfl, by omega⟩, scaled_hidden, bottom, ulp_succ]
    nlinarith
  · rw [scaled_hidden, bottom, ulp_succ]
    nlinarith
  · intro hodd
    exact absurd hodd (by decide)

end Describes

-- What is left once all digits but 53, or those below the least exponent, are dropped is rounded;
-- the mantissa may grow by a digit that way.
theorem roundsTo_of_shift (hfirst : shiftToTargetExponent .binary64 m e accuracy = (em, t))
    (hx : Describes em x) (ht : -1074 ≤ t) (hshort : em.mantissa < 2 ^ 53)
    (hfull : t = -1074 ∨ 2 ^ 52 ≤ em.mantissa) :
    RoundsTo s (x * ulp t) (roundWithAccuracy .binary64 s m e accuracy) := by
  have hless := le_roundedMantissa em
  have hmore := roundedMantissa_le em
  unfold roundWithAccuracy
  simp only [hfirst]
  by_cases hcarry : em.roundedMantissa < 2 ^ 53
  · have hcovers := hx.covers_roundedMantissa hfull
    simp only [shiftToTargetExponent_of_lt hcarry ht, mantissa_ofMantissaAndAccuracy]
    split
    · rename_i hzero
      have hleast : t = -1074 := hfull.resolve_right (by omega)
      rw [hzero] at hcovers
      subst hleast
      exact .zero hcovers
    · exact .finite _ ⟨hcarry, ht, hfull.imp id fun hlarge => by omega⟩ hcovers
  · have hpower : em.roundedMantissa = 2 ^ 53 := by omega
    have hcovers := hx.covers_carry ht hshort hpower
    have hlast := @shiftToTargetExponent_eq (2 ^ 53) 1 t .exact (by omega) (by decide) (by decide)
    have hdigits : (ExtendedMantissa.ofMantissaAndAccuracy (2 ^ 53) .exact >>> 1).mantissa =
        2 ^ 52 := rfl
    simp only [hpower, hlast, hdigits]
    exact .finite (by decide) ⟨by decide, by push_cast; omega, .inr (le_refl _)⟩ hcovers

-- A number whose digits reach behind the last one of a double is rounded as a whole, with what is
-- known of its digits behind the mantissa.
theorem roundsTo_roundWithAccuracy (s : Sign) (hrest : Leaves accuracy rest)
    (he : 52 ≤ m.log2 ∨ e ≤ -1074) :
    RoundsTo s ((m + rest) * ulp e) (roundWithAccuracy .binary64 s m e accuracy) := by
  obtain ⟨n, hn⟩ : ∃ n : Nat,
      Format.binary64.targetExponent (totalExponent m e) = e + n := by
    refine ⟨(Format.binary64.targetExponent (totalExponent m e) - e).toNat, ?_⟩
    change max (totalExponent m e - 53) (-1074) = e + (max (totalExponent m e - 53) (-1074) - e).toNat
    simp only [totalExponent]
    omega
  have htarget : max ((m.log2 : Int) + 1 + e - 53) (-1074) = e + n := hn
  have hfirst : shiftToTargetExponent .binary64 m e accuracy =
      (ExtendedMantissa.ofMantissaAndAccuracy m accuracy >>> n, e + n) := by
    have hshift : (e + (n : Int) - e).toNat = n := by omega
    simp only [UnpackedFloat.shiftToTargetExponent, hn, shiftToExponent, hshift]
  have hmantissa :
      (ExtendedMantissa.ofMantissaAndAccuracy m accuracy >>> n).mantissa = m / 2 ^ n := by
    rw [mantissa_shiftRight, mantissa_ofMantissaAndAccuracy]
  have hvalue : (m + rest) * ulp e = (m + rest) / 2 ^ n * ulp (e + n) := by
    rw [ulp, ulp, zpow_add₀ (by norm_num), zpow_natCast]
    field_simp
  rw [hvalue]
  refine roundsTo_of_shift hfirst ((hrest.describes m).shiftRight n) (by omega) ?_ ?_
  · rw [hmantissa, Nat.div_lt_iff_lt_mul (Nat.two_pow_pos n), ← Nat.pow_add]
    calc m < 2 ^ (m.log2 + 1) := Nat.lt_log2_self
      _ ≤ 2 ^ (53 + n) := Nat.pow_le_pow_right (by decide) (by omega)
  · by_cases hleast : e + (n : Int) = -1074
    · exact .inl hleast
    · right
      have hlog : 52 + n = m.log2 := by omega
      have hm : m ≠ 0 := by
        rintro rfl
        rw [Nat.log2_zero] at hlog
        omega
      rw [hmantissa, Nat.le_div_iff_mul_le (Nat.two_pow_pos n), ← Nat.pow_add, hlog]
      exact Nat.log2_self_le hm

theorem ulp_add (e f : Int) : ulp (e + f) = ulp e * ulp f :=
  zpow_add₀ (by norm_num) e f

theorem log2_shiftLeft (hm : m ≠ 0) (n : Nat) : (m <<< n).log2 = m.log2 + n := by
  rw [Nat.log2_eq_iff (by rw [Nat.shiftLeft_eq]; positivity), Nat.shiftLeft_eq]
  have hlow := Nat.log2_self_le hm
  have hhigh : m < 2 ^ (m.log2 + 1) := Nat.lt_log2_self
  constructor
  · rw [Nat.pow_add]
    exact Nat.mul_le_mul_right _ hlow
  · rw [Nat.add_right_comm, Nat.pow_add]
    exact Nat.mul_lt_mul_of_pos_right hhigh (Nat.two_pow_pos n)

theorem scaled_shiftLeft (m n : Nat) (e : Int) : scaled (m <<< n) (e - n) = scaled m e := by
  rw [scaled, scaled, ulp, ulp, zpow_sub₀ (by norm_num), zpow_natCast, Nat.shiftLeft_eq]
  push_cast
  field_simp

section Operations

variable {hm : 0 < m} {hn : 0 < n}

-- The product of two mantissas is rounded as it is, so that it has to be long enough.
theorem roundsTo_mul (s u : Sign) (hlong : 52 ≤ (m * n).log2) :
    RoundsTo (s * u) (scaled m e * scaled n f)
      (UnpackedFloat.mul .binary64 (.finite s m e hm) (.finite u n f hn)) := by
  have hround := roundsTo_roundWithAccuracy (s * u) leaves_exact
    (.inl hlong : 52 ≤ (m * n).log2 ∨ e + f ≤ -1074)
  have hvalue : scaled m e * scaled n f = ((m * n : Nat) + 0) * ulp (e + f) := by
    rw [scaled, scaled, ulp_add]
    push_cast
    ring
  rw [hvalue]
  exact hround

-- A quotient is rounded with what is known of its remainder.
theorem roundsTo_div (s u : Sign) :
    RoundsTo (s / u) (scaled m e / scaled n f)
      (UnpackedFloat.div .binary64 (.finite s m e hm) (.finite u n f hn)) := by
  have htarget : Format.binary64.targetExponent (totalExponent m e - totalExponent n f) =
      max ((m.log2 + e : Int) - (n.log2 + f) - 53) (-1074) := by
    change max (totalExponent m e - totalExponent n f - 53) (-1074) = _
    simp only [totalExponent]
    omega
  simp only [UnpackedFloat.div, divCore, htarget]
  generalize hlast : min (e - f) _ = last
  obtain ⟨k, hk⟩ : ∃ k : Nat, last = e - f - k := by
    refine ⟨(e - f - last).toNat, ?_⟩
    omega
  have hshift : (e - f - last).toNat = k := by omega
  rw [hshift]
  have hremainder := leaves_accuracyOfFraction (Nat.mod_lt (m <<< k) hn)
  have hlong : 52 ≤ ((m <<< k) / n).log2 ∨ last ≤ -1074 := by
    by_cases hleast : last ≤ -1074
    · exact .inr hleast
    · left
      have hdigits := log2_shiftLeft hm.ne' k
      have hdividend : 2 ^ (m <<< k).log2 ≤ m <<< k := Nat.log2_self_le (by
        rw [Nat.shiftLeft_eq]
        positivity)
      have hdivisor : n < 2 ^ (n.log2 + 1) := Nat.lt_log2_self
      have hquotient : 2 ^ 52 ≤ (m <<< k) / n := by
        rw [Nat.le_div_iff_mul_le hn]
        calc 2 ^ 52 * n ≤ 2 ^ 52 * 2 ^ (n.log2 + 1) := Nat.mul_le_mul_left _ hdivisor.le
          _ = 2 ^ (n.log2 + 53) := by
              rw [← Nat.pow_add]
              congr 1
              omega
          _ ≤ 2 ^ (m <<< k).log2 := Nat.pow_le_pow_right (by decide) (by omega)
          _ ≤ m <<< k := hdividend
      exact (Nat.le_log2 (by omega)).mpr hquotient
  have hvalue : scaled m e / scaled n f =
      (((m <<< k) / n : Nat) + ((m <<< k) % n : Nat) / n) * ulp last := by
    have hcast : ((m <<< k : Nat) : ℚ) = n * ((m <<< k) / n : Nat) + ((m <<< k) % n : Nat) := by
      exact_mod_cast (Nat.div_add_mod (m <<< k) n).symm
    have hne : (n : ℚ) ≠ 0 := by exact_mod_cast hn.ne'
    have hquotient : (((m <<< k) / n : Nat) : ℚ) + ((m <<< k) % n : Nat) / n =
        (m <<< k : Nat) / n := by
      rw [hcast]
      field_simp
    have hexponent : ulp (e - k) = ulp (e - f - k) * ulp f := by
      rw [← ulp_add]
      congr 1
      omega
    have hulp := (ulp_pos f).ne'
    rw [hquotient, hk, ← scaled_shiftLeft m k e, scaled, scaled, hexponent]
    field_simp
  rw [hvalue]
  exact roundsTo_roundWithAccuracy (s / u) hremainder hlong

end Operations

theorem le_log2_mul (hn : 0 < n) (h : 52 ≤ m.log2) : 52 ≤ (m * n).log2 := by
  have hm : m ≠ 0 := by
    rintro rfl
    rw [Nat.log2_zero] at h
    omega
  rw [Nat.le_log2 (by positivity)]
  calc 2 ^ 52 ≤ m := (Nat.le_log2 hm).mp h
    _ ≤ m * n := Nat.le_mul_of_pos_right m hn

theorem scaled_zero_exponent (m : Nat) : scaled m 0 = m := by
  rw [scaled, ulp, zpow_zero, mul_one]

-- A whole number is rounded from enough digits.
theorem roundsTo_unpackedOfNat (hn : 0 < n) :
    RoundsTo .positive n (UnpackedFloat.ofNat .binary64 n) := by
  have htarget : Format.binary64.targetExponent (totalExponent n 0) =
      max ((n.log2 : Int) - 52) (-1074) := by
    change max (totalExponent n 0 - 53) (-1074) = _
    simp only [totalExponent]
    omega
  have hround := @roundsTo_roundWithAccuracy (n <<< (0 - max ((n.log2 : Int) - 52) (-1074)).toNat)
    (0 - (0 - max ((n.log2 : Int) - 52) (-1074)).toNat) 0 .exact .positive leaves_exact
    (.inl (by rw [log2_shiftLeft hn.ne']; omega))
  rw [add_zero, ← scaled, scaled_shiftLeft, scaled_zero_exponent] at hround
  have hpositive : compare (n : Int) 0 = .gt := compare_gt_iff_gt.mpr (by omega)
  unfold UnpackedFloat.ofNat UnpackedFloat.ofInt UnpackedFloat.normalize
  simp only [hpositive, Int.toNat_natCast, UnpackedFloat.round, htarget, decreaseExponent]
  exact hround

-- Digits with a power of ten are rounded once, as a product or as a quotient.
theorem roundsTo_ofScientific (hm : 0 < m) (hlow : -2048 ≤ e) (hhigh : e ≤ 2048) :
    RoundsTo .positive (m * 10 ^ e) (UnpackedFloat.ofScientific .binary64 m e) := by
  have hrange : (2 : Int) ^ Format.binary64.exponentBits = 2048 := rfl
  unfold UnpackedFloat.ofScientific
  rw [hrange, dif_neg hm.ne', if_neg (by omega), if_neg (by omega)]
  split
  · rename_i hnonneg
    obtain ⟨k, rfl⟩ := Int.eq_ofNat_of_zero_le hnonneg
    have hlong : 52 ≤ ((m <<< Format.binary64.mantissaBits) * 10 ^ (k : Int).toNat).log2 := by
      refine le_log2_mul (by positivity) ?_
      rw [log2_shiftLeft hm.ne']
      exact le_trans (by decide) (Nat.le_add_left 53 _)
    have hvalue : (m : ℚ) * 10 ^ (k : Int) = scaled (m <<< Format.binary64.mantissaBits)
        (-(Format.binary64.mantissaBits : Nat)) * scaled (10 ^ (k : Int).toNat) 0 := by
      rw [← zero_sub, scaled_shiftLeft, scaled_zero_exponent, scaled_zero_exponent]
      simp
    rw [hvalue]
    exact roundsTo_mul .positive .positive hlong
  · rename_i hneg
    obtain ⟨k, hk⟩ := Int.eq_ofNat_of_zero_le (show 0 ≤ -e by omega)
    have hvalue : (m : ℚ) * 10 ^ e = scaled m 0 / scaled (10 ^ (-e).toNat) 0 := by
      obtain rfl : e = -(k : Int) := by omega
      rw [scaled_zero_exponent, scaled_zero_exponent, zpow_neg]
      simp [div_eq_mul_inv]
    rw [hvalue]
    exact roundsTo_div .positive .positive

end Sieve.Double

import Mathlib
import Sieve.Proofs.Value.Order

-- How large a double can be, by the power of two that it stays below. Below `2 ^ 972` none of the
-- operations here runs over to an infinity.
namespace Sieve.Double

open Float.Model (UnpackedFloat Format totalExponent)
open Float.Model.UnpackedFloat hiding pack unpack

variable {a b : UnpackedFloat} {m n : Nat} {e k : Int}

-- Whether `m * 2 ^ e` is below `2 ^ k`.
def PartsBelow (k : Int) (m : Nat) (e : Int) : Prop :=
  ∃ bits : Nat, m < 2 ^ bits ∧ bits + e ≤ k

-- Whether a double is finite, and its magnitude below `2 ^ k`.
inductive IsBelow (k : Int) : UnpackedFloat → Prop where
  | zero (s : Sign) : IsBelow k (.zero s)
  | finite {m : Nat} {e : Int} (s : Sign) (hm : 0 < m) (h : PartsBelow k m e) :
      IsBelow k (.finite s m e hm)

theorem IsBelow.isFinite (h : IsBelow k a) : a.isFinite = true := by
  cases h <;> rfl

theorem PartsBelow.mono {l : Int} (h : PartsBelow k m e) (hkl : k ≤ l) : PartsBelow l m e := by
  obtain ⟨bits, hbits, hle⟩ := h
  exact ⟨bits, hbits, by omega⟩

theorem IsBelow.mono {l : Int} (h : IsBelow k a) (hkl : k ≤ l) : IsBelow l a := by
  cases h with
  | zero s => exact .zero s
  | finite s hm h => exact .finite s hm (h.mono hkl)

theorem PartsBelow.totalExponent_le (h : PartsBelow k m e) (hm : 0 < m) : totalExponent m e ≤ k := by
  obtain ⟨bits, hbits, hk⟩ := h
  have hlog : m.log2 < bits := (Nat.log2_lt hm.ne').mpr hbits
  simp only [totalExponent]
  omega

-- A shift to the right drops digits, but the number does not grow unless the exponent does.
theorem PartsBelow.shiftRight (h : PartsBelow k m e) (n : Nat) (hn : e + n ≤ k) :
    PartsBelow k (m / 2 ^ n) (e + n) := by
  obtain ⟨bits, hbits, hk⟩ := h
  by_cases hfew : bits ≤ n
  · refine ⟨0, ?_, by omega⟩
    have hle : 2 ^ bits ≤ 2 ^ n := Nat.pow_le_pow_right (by decide) hfew
    rw [Nat.div_eq_of_lt (by omega)]
    decide
  · refine ⟨bits - n, ?_, by omega⟩
    rw [Nat.div_lt_iff_lt_mul (Nat.two_pow_pos n), ← Nat.pow_add, Nat.sub_add_cancel (by omega)]
    exact hbits

theorem PartsBelow.shiftLeft (h : PartsBelow k m e) (n : Nat) : PartsBelow k (m <<< n) (e - n) := by
  obtain ⟨bits, hbits, hk⟩ := h
  refine ⟨bits + n, ?_, by push_cast; omega⟩
  rw [Nat.shiftLeft_eq, Nat.pow_add]
  exact Nat.mul_lt_mul_of_pos_right hbits (Nat.two_pow_pos n)

theorem PartsBelow.succ (h : PartsBelow k m e) (hn : n ≤ m + 1) : PartsBelow (k + 1) n e := by
  obtain ⟨bits, hbits, hk⟩ := h
  refine ⟨bits + 1, ?_, by push_cast; omega⟩
  rw [Nat.pow_succ]
  omega

-- Rounding

theorem mantissa_shiftRight (em : ExtendedMantissa) (n : Nat) :
    (em >>> n).mantissa = em.mantissa / 2 ^ n := by
  induction n with
  | zero => exact (Nat.div_one _).symm
  | succ n ih =>
      change (em >>> n).mantissa / 2 = _
      rw [ih, Nat.div_div_eq_div_mul, ← Nat.pow_succ]

theorem roundedMantissa_le (em : ExtendedMantissa) : em.roundedMantissa ≤ em.mantissa + 1 := by
  unfold ExtendedMantissa.roundedMantissa
  cases em.accuracy with
  | exact => exact Nat.le_succ _
  | inexact order => cases order <;> simp only [Accuracy.roundToNearestEven] <;> omega

theorem mantissa_ofMantissaAndAccuracy (m : Nat) (accuracy : Accuracy) :
    (ExtendedMantissa.ofMantissaAndAccuracy m accuracy).mantissa = m := by
  fun_cases ExtendedMantissa.ofMantissaAndAccuracy m accuracy <;> rfl

theorem PartsBelow.shiftToTargetExponent (h : PartsBelow k m e) (hk : -1074 ≤ k)
    (accuracy : Accuracy) :
    PartsBelow k (shiftToTargetExponent .binary64 m e accuracy).1.mantissa
      (shiftToTargetExponent .binary64 m e accuracy).2 := by
  have he : e ≤ k := by
    obtain ⟨bits, -, hbits⟩ := h
    omega
  have htarget : e < Format.binary64.targetExponent (totalExponent m e) →
      Format.binary64.targetExponent (totalExponent m e) ≤ k := by
    intro hlow
    change e < max (totalExponent m e - 53) (-1074) at hlow
    change max (totalExponent m e - 53) (-1074) ≤ k
    by_cases hm : m = 0
    · simp only [hm, totalExponent, Nat.log2_zero] at hlow ⊢
      omega
    · have htotal := h.totalExponent_le (by omega)
      omega
  simp only [UnpackedFloat.shiftToTargetExponent, shiftToExponent, mantissa_shiftRight,
    mantissa_ofMantissaAndAccuracy]
  apply h.shiftRight
  omega

theorem isBelow_roundWithAccuracy (s : Sign) (h : PartsBelow k m e) (hk : -1074 ≤ k)
    (accuracy : Accuracy) : IsBelow (k + 1) (roundWithAccuracy .binary64 s m e accuracy) := by
  have hfirst := h.shiftToTargetExponent hk accuracy
  have hrounded := hfirst.succ (roundedMantissa_le _)
  have hlast := hrounded.shiftToTargetExponent (by omega) .exact
  unfold roundWithAccuracy
  dsimp only
  split
  · exact .zero s
  · exact .finite s _ hlast

theorem IsBelow.mul {l : Int} (ha : IsBelow k a) (hb : IsBelow l b) (hkl : -1074 ≤ k + l) :
    IsBelow (k + l + 1) (UnpackedFloat.mul .binary64 a b) := by
  cases ha with
  | zero s => cases hb <;> exact .zero _
  | finite s hm ha =>
      cases hb with
      | zero t => exact .zero _
      | finite t hn hb =>
          obtain ⟨bits, hbits, hk⟩ := ha
          obtain ⟨others, hothers, hl⟩ := hb
          refine isBelow_roundWithAccuracy _ ⟨bits + others, ?_, by push_cast; omega⟩ hkl .exact
          rw [Nat.pow_add]
          exact Nat.mul_lt_mul'' hbits hothers

-- Whether a double is finite, and its magnitude one or more.
def isOneOrMore : UnpackedFloat → Bool
  | .finite _ m e _ => 1 ≤ totalExponent m e
  | _ => false

-- Such a divisor does not make a number larger, but for the rounding.
theorem IsBelow.div (ha : IsBelow k a) (hb : isOneOrMore b = true) (hk : -1074 ≤ k) :
    IsBelow (k + 1) (UnpackedFloat.div .binary64 a b) := by
  obtain ⟨s⟩ | _ | ⟨s⟩ | ⟨s, n, e, hn⟩ := b
  · cases hb
  · cases hb
  · cases hb
  cases ha with
  | zero t => exact .zero _
  | @finite m f t hm ha =>
      have hdividend : totalExponent m f ≤ k := ha.totalExponent_le hm
      have hdivisor : 1 ≤ totalExponent n e := of_decide_eq_true hb
      obtain ⟨bits, hbits, hle⟩ := ha
      unfold UnpackedFloat.div divCore
      refine isBelow_roundWithAccuracy _ ?_ hk _
      have hexponent : Format.binary64.targetExponent (totalExponent m f - totalExponent n e) ≤ k := by
        change max (totalExponent m f - totalExponent n e - 53) (-1074) ≤ k
        omega
      generalize htarget : min (f - e) _ = target
      have hlow : target ≤ f - e := by omega
      generalize hshift : (f - e - target).toNat = shift
      have hpow : 2 ^ n.log2 ≤ n := Nat.log2_self_le hn.ne'
      have hshifted : m * 2 ^ shift < 2 ^ (bits + shift) := by
        rw [Nat.pow_add]
        exact Nat.mul_lt_mul_of_pos_right hbits (Nat.two_pow_pos shift)
      simp only [totalExponent] at hdivisor
      rw [Nat.shiftLeft_eq]
      -- The quotient has at most as many digits as the dividend has more than the divisor.
      by_cases hfew : bits + shift ≤ n.log2
      · refine ⟨0, ?_, by omega⟩
        have hdigits : 2 ^ (bits + shift) ≤ 2 ^ n.log2 := Nat.pow_le_pow_right (by decide) hfew
        rw [Nat.div_eq_of_lt (by omega)]
        decide
      · refine ⟨bits + shift - n.log2, ?_, by omega⟩
        rw [Nat.div_lt_iff_lt_mul hn]
        calc m * 2 ^ shift < 2 ^ (bits + shift) := hshifted
          _ = 2 ^ (bits + shift - n.log2) * 2 ^ n.log2 := by
              rw [← Nat.pow_add, Nat.sub_add_cancel (by omega)]
          _ ≤ 2 ^ (bits + shift - n.log2) * n := Nat.mul_le_mul_left _ hpow

theorem isBelow_round (s : Sign) (h : PartsBelow k m e) (hk : -1074 ≤ k) :
    IsBelow (k + 1) (UnpackedFloat.round .binary64 s m e) :=
  isBelow_roundWithAccuracy s (h.shiftLeft _) hk .exact

theorem isBelow_unpackedOfNat (h : PartsBelow k n 0) (hk : -1074 ≤ k) :
    IsBelow (k + 1) (UnpackedFloat.ofNat .binary64 n) := by
  unfold UnpackedFloat.ofNat UnpackedFloat.ofInt UnpackedFloat.normalize
  split
  · rename_i hneg
    rw [Int.compare_eq_lt] at hneg
    omega
  · exact .zero .positive
  · exact isBelow_round _ (by simpa using h) hk

-- How doubles are stored. The largest exponent is left to what is not finite.

theorem unpackExponent_ne {bits : BitVec Format.binary64.numBits}
    (h : (unpackExponent bits).toNat ≤ 2046) : unpackExponent bits ≠ -1#_ := by
  intro hlargest
  rw [hlargest] at h
  exact absurd h (by decide)

theorem toNat_unpackExponent_pack (s : Sign) (hm : 0 < m) (he : e ≤ 971) :
    (unpackExponent (UnpackedFloat.pack .binary64 (.finite s m e hm))).toNat =
      if m.log2 = 52 then (e + 1075).toNat else 0 := by
  have hbiased : (e + (Format.binary64.exponentBias : Nat) + (52 : Nat)).toNat = (e + 1075).toNat := by
    change (e + 1023 + 52).toNat = _
    omega
  have hnormal : m.log2 + 1 = Format.binary64.mantissaBits ↔ m.log2 = 52 := by
    change m.log2 + 1 = 53 ↔ _
    omega
  unfold UnpackedFloat.pack
  dsimp only
  rw [hbiased, if_neg (by omega)]
  by_cases hlog : m.log2 = 52
  · rw [if_pos (hnormal.mpr hlog), if_pos hlog, unpackExponent_packComponents, BitVec.toNat_ofNat]
    exact Nat.mod_eq_of_lt (by omega)
  · rw [if_neg (mt hnormal.mp hlog), if_neg hlog, unpackExponent_packComponents]
    rfl

theorem isBelow_unpack {bits : BitVec Format.binary64.numBits}
    (hle : (unpackExponent bits).toNat ≤ k + 1022) (hk : k ≤ 972) :
    IsBelow k (UnpackedFloat.unpack .binary64 bits) := by
  unfold UnpackedFloat.unpack
  dsimp only
  rw [if_neg (unpackExponent_ne (by omega))]
  split
  · rename_i hzero
    split
    · exact .zero _
    · refine .finite _ _ ⟨52, (unpackMantissa bits).isLt, ?_⟩
      rw [hzero] at hle ⊢
      change _ + ((0 : Int) - (1023 + 52) + 1) ≤ k
      change (0 : Int) ≤ _ at hle
      omega
  · refine .finite _ _ ⟨53, (1#1 ++ unpackMantissa bits).isLt, ?_⟩
    change _ + (_ - ((1023 : Int) + 52)) ≤ k
    omega

theorem IsBelow.unpack_pack (h : IsBelow k a) (hlow : 0 ≤ k) (hhigh : k ≤ 972) :
    IsBelow k (Float.Model.pack a).unpack := by
  refine isBelow_unpack ?_ hhigh
  change ((unpackExponent (UnpackedFloat.pack .binary64 a)).toNat : Int) ≤ _
  cases h with
  | zero s =>
      rw [UnpackedFloat.pack, packedZero, unpackExponent_packComponents]
      change (0 : Int) ≤ _
      omega
  | @finite m e s hm h =>
      have htotal : (m.log2 : Int) + 1 + e ≤ k := h.totalExponent_le hm
      rw [toNat_unpackExponent_pack s hm (by omega)]
      split <;> omega

theorem isFinite_unpack {bits : BitVec Format.binary64.numBits}
    (h : (unpackExponent bits).toNat ≤ 2046) :
    (UnpackedFloat.unpack .binary64 bits).isFinite = true := by
  unfold UnpackedFloat.unpack
  dsimp only
  rw [if_neg (unpackExponent_ne h)]
  split
  · split <;> rfl
  · rfl

theorem exponent_le_of_unpack {bits : BitVec Format.binary64.numBits} {s : Sign} {hm : 0 < m}
    (h : UnpackedFloat.unpack .binary64 bits = .finite s m e hm) : e ≤ 971 := by
  have hlt : (unpackExponent bits).toNat < 2048 := (unpackExponent bits).isLt
  unfold UnpackedFloat.unpack at h
  dsimp only at h
  split at h
  · split at h <;> cases h
  · rename_i hlargest
    have hle : (unpackExponent bits).toNat ≠ 2047 := by
      intro heq
      exact hlargest (BitVec.eq_of_toNat_eq heq)
    split at h
    · rename_i hzero
      split at h
      · cases h
      · injection h with _ _ he
        rw [← he, hzero]
        decide
    · injection h with _ _ he
      rw [← he]
      change _ - ((1023 : Int) + 52) ≤ 971
      omega

theorem isOneOrMore_unpack {bits : BitVec Format.binary64.numBits}
    (hlow : 1023 ≤ (unpackExponent bits).toNat) (hhigh : (unpackExponent bits).toNat ≤ 2046) :
    isOneOrMore (UnpackedFloat.unpack .binary64 bits) = true := by
  have hzero : unpackExponent bits ≠ 0#_ := by
    intro hzero
    rw [hzero] at hlow
    exact absurd hlow (by decide)
  unfold UnpackedFloat.unpack
  dsimp only
  rw [if_neg (unpackExponent_ne hhigh), if_neg hzero]
  have hhidden : 2 ^ 52 ≤ (1#1 ++ unpackMantissa bits).toNat := by
    rw [BitVec.toNat_append, ← Nat.shiftLeft_add_eq_or_of_lt (unpackMantissa bits).isLt]
    exact Nat.le_add_right _ _
  have hlog : 52 ≤ (1#1 ++ unpackMantissa bits).toNat.log2 :=
    (Nat.le_log2 (by omega)).mpr hhidden
  apply decide_eq_true
  change 1 ≤ ((1#1 ++ unpackMantissa bits).toNat.log2 : Int) + 1 + (_ - (1023 + 52))
  omega

theorem isOneOrMore_unpack_pack (s : Sign) (hm : 0 < m) (hlow : 2 ^ 52 ≤ m) (hhigh : m < 2 ^ 53)
    (he : -52 ≤ e) (he' : e ≤ 971) :
    isOneOrMore (Float.Model.pack (.finite s m e hm)).unpack = true := by
  have hlog : m.log2 = 52 := (Nat.log2_eq_iff hm.ne').mpr ⟨hlow, hhigh⟩
  have hexponent := toNat_unpackExponent_pack s hm he'
  rw [if_pos hlog] at hexponent
  exact isOneOrMore_unpack (hexponent ▸ by omega) (hexponent ▸ by omega)

-- Rounding to 53 digits

theorem le_roundedMantissa (em : ExtendedMantissa) : em.mantissa ≤ em.roundedMantissa := by
  unfold ExtendedMantissa.roundedMantissa
  cases em.accuracy with
  | exact => exact Nat.le_refl _
  | inexact order => cases order <;> simp only [Accuracy.roundToNearestEven] <;> omega

-- Where the first 53 digits begin decides how many of the others a shift drops.
theorem shiftToTargetExponent_eq (accuracy : Accuracy) (he : -1074 ≤ e + n)
    (hlow : 2 ^ 52 ≤ m / 2 ^ n) (hhigh : m / 2 ^ n < 2 ^ 53) :
    shiftToTargetExponent .binary64 m e accuracy =
      (ExtendedMantissa.ofMantissaAndAccuracy m accuracy >>> n, e + n) := by
  rw [Nat.le_div_iff_mul_le (Nat.two_pow_pos n), ← Nat.pow_add] at hlow
  rw [Nat.div_lt_iff_lt_mul (Nat.two_pow_pos n), ← Nat.pow_add] at hhigh
  have hm : m ≠ 0 := by
    have hpow := Nat.two_pow_pos (52 + n)
    omega
  have hlog : m.log2 = 52 + n := by
    rw [Nat.log2_eq_iff hm]
    exact ⟨hlow, by rwa [Nat.add_right_comm]⟩
  have htarget : Format.binary64.targetExponent (totalExponent m e) = e + n := by
    change max (totalExponent m e - 53) (-1074) = e + n
    simp only [totalExponent, hlog]
    omega
  have hshift : (e + (n : Int) - e).toNat = n := by omega
  simp only [UnpackedFloat.shiftToTargetExponent, htarget, shiftToExponent, hshift]

-- A number keeps its first 53 digits when it is rounded, or one more, unless they are all ones.
theorem roundWithAccuracy_eq_finite (s : Sign) (accuracy : Accuracy) (he : -1074 ≤ e + n)
    (hlow : 2 ^ 52 ≤ m / 2 ^ n) (hhigh : m / 2 ^ n + 1 < 2 ^ 53) :
    ∃ r hr, 2 ^ 52 ≤ r ∧ r < 2 ^ 53 ∧
      roundWithAccuracy .binary64 s m e accuracy = .finite s r (e + n) hr := by
  have hfirst := shiftToTargetExponent_eq accuracy he hlow (by omega)
  have hmantissa := mantissa_shiftRight (.ofMantissaAndAccuracy m accuracy) n
  rw [mantissa_ofMantissaAndAccuracy] at hmantissa
  generalize hem : ExtendedMantissa.ofMantissaAndAccuracy m accuracy >>> n = em at hfirst hmantissa
  have hless := le_roundedMantissa em
  have hmore := roundedMantissa_le em
  rw [hmantissa] at hless hmore
  have hlast := @shiftToTargetExponent_eq em.roundedMantissa 0 (e + n) .exact (by omega)
    (by omega) (by omega)
  refine ⟨em.roundedMantissa, by omega, by omega, by omega, ?_⟩
  have hdigits : (ExtendedMantissa.ofMantissaAndAccuracy em.roundedMantissa .exact >>> 0).mantissa =
      em.roundedMantissa := rfl
  have hzero : em.roundedMantissa ≠ 0 := by omega
  simp [roundWithAccuracy, hfirst, hlast, hdigits, hzero]

-- Doubles

variable {x : Float}

-- Whether a double is finite, and its magnitude below `2 ^ k`.
def Below (k : Int) (x : Float) : Prop :=
  IsBelow k x.toModel.unpack

theorem Below.isFinite (h : Below k x) : x.isFinite = true :=
  IsBelow.isFinite h

theorem Below.mono {l : Int} (h : Below k x) (hkl : k ≤ l) : Below l x :=
  IsBelow.mono h hkl

theorem isFinite_neg (h : x.isFinite = true) : (-x).isFinite = true := by
  apply isFinite_unpack
  change (unpackExponent (UnpackedFloat.pack .binary64 x.toModel.unpack.neg)).toNat ≤ 2046
  change x.toModel.unpack.isFinite = true at h
  cases hx : x.toModel.unpack with
  | notANumber => rw [hx] at h; cases h
  | infinity s => rw [hx] at h; cases h
  | zero s =>
      rw [UnpackedFloat.neg, UnpackedFloat.pack, packedZero, unpackExponent_packComponents]
      decide
  | finite s m e hm =>
      have he : e ≤ 971 := exponent_le_of_unpack hx
      rw [UnpackedFloat.neg, toNat_unpackExponent_pack _ hm he]
      split <;> omega

theorem below_ofNat (hn : n < 2 ^ 64) : Below 66 (Float.ofNat n) := by
  have hone : IsBelow 1 (.finite .positive (2 ^ 52) (-52) (by decide)) :=
    .finite _ _ ⟨53, by decide, by decide⟩
  change Below 66 (Float.ofScientific n false 0)
  unfold Float.ofScientific
  split
  · rename_i hshort
    have hword : n.toUInt64.toNat = n := by
      rw [Nat.toUInt64, UInt64.toNat_ofNat']
      exact Nat.mod_eq_of_lt hn
    have hunpacked : IsBelow 54 (Float.Model.ofUInt64 n.toUInt64).unpack := by
      refine IsBelow.unpack_pack ?_ (by decide) (by decide)
      have hparts : PartsBelow 53 n 0 := ⟨53, hshort.1, by decide⟩
      rw [UnpackedFloat.ofUInt64, hword]
      exact isBelow_unpackedOfNat hparts (by decide)
    refine (IsBelow.unpack_pack ?_ (by decide) (by decide) : Below 56 _).mono (by decide)
    change IsBelow 56 (UnpackedFloat.mul _ _ (Float.ofBits 0x3FF0000000000000).toModel.unpack)
    rw [unpack_one]
    exact hunpacked.mul hone (by decide)
  · refine IsBelow.unpack_pack ?_ (by decide) (by decide)
    change IsBelow 66 (UnpackedFloat.ofScientific .binary64 n 0)
    unfold UnpackedFloat.ofScientific
    split
    · exact .zero _
    · split
      · rename_i hlarge
        exact absurd hlarge (by decide)
      · split
        · exact .zero _
        · rw [if_pos (Int.le_refl 0)]
          have hdigits : PartsBelow 64 n 0 := ⟨64, hn, by decide⟩
          have hshifted := hdigits.shiftLeft Format.binary64.mantissaBits
          rw [Int.zero_sub] at hshifted
          have hten : PartsBelow 1 (10 ^ Int.toNat 0) 0 := ⟨1, by decide, by decide⟩
          exact (IsBelow.finite _ _ hshifted).mul (.finite _ _ hten) (by decide)

-- Where the first 53 binary digits of a power of ten begin, and that they are not all ones. The
-- factor is the binary logarithm of ten.
theorem leading_powerOfTen : ∀ n < 309,
    2 ^ 52 ≤ (1 <<< 53) * 10 ^ n / 2 ^ (n * 33219281 / 10000000 + 1) ∧
      (1 <<< 53) * 10 ^ n / 2 ^ (n * 33219281 / 10000000 + 1) + 1 < 2 ^ 53 := by
  decide +kernel

theorem isOneOrMore_powerOfTen (hn : n < 309) :
    isOneOrMore (Float.ofScientific 1 false n).toModel.unpack = true := by
  by_cases hshort : n < 23
  · have htable : ∀ n < 23, isOneOrMore (Float.ofScientific 1 false n).toModel.unpack = true := by
      decide +kernel
    exact htable n hshort
  · obtain ⟨hlow, hhigh⟩ := leading_powerOfTen n hn
    have hexponent : n * 33219281 / 10000000 ≤ 1023 := by omega
    generalize n * 33219281 / 10000000 = log at hlow hhigh hexponent
    obtain ⟨r, hr, hrlow, hrhigh, hround⟩ := @roundWithAccuracy_eq_finite _ _ (-53 + 0) .positive
      .exact (by omega) hlow hhigh
    unfold Float.ofScientific
    rw [dif_neg (by omega)]
    change isOneOrMore (Float.Model.pack (UnpackedFloat.ofScientific .binary64 1 n)).unpack = true
    have hproduct : UnpackedFloat.ofScientific .binary64 1 n =
        .finite .positive r (-53 + 0 + (log + 1 : Nat)) hr := by
      have hrange : (2 : Int) ^ Format.binary64.exponentBits = 2048 := rfl
      unfold UnpackedFloat.ofScientific
      rw [hrange, dif_neg (by decide), if_neg, if_neg, if_pos]
      · exact hround
      · omega
      · omega
      · omega
    rw [hproduct]
    apply isOneOrMore_unpack_pack _ _ hrlow hrhigh <;> omega

theorem Below.div_powerOfTen (h : Below k x) (hn : n < 309) (hlow : 0 ≤ k) (hhigh : k < 972) :
    Below (k + 1) (x / Float.ofScientific 1 false n) :=
  (IsBelow.div h (isOneOrMore_powerOfTen hn) (by omega)).unpack_pack (by omega) (by omega)

end Sieve.Double

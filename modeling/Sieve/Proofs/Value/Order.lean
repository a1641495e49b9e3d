import Mathlib
import Sieve.Coercer

-- Where a stored value stands relative to a literal: somewhere, if the kinds go together and
-- neither of the two is a double that is no number.
namespace Sieve

open Float.Model (UnpackedFloat Format)
open Float.Model.UnpackedFloat hiding pack unpack

namespace Double

variable {spec : Format} {a b : UnpackedFloat}

theorem compare_eq_none_iff : a.compare b = none ↔ a.isNaN = true ∨ b.isNaN = true := by
  fun_cases a.compare b <;> simp_all [isNaN]

theorem compare_swap (a b : UnpackedFloat) : b.compare a = (a.compare b).map Ordering.swap := by
  have hsigns (s t : Sign) : compare t s = (compare s t).swap := by
    cases s <;> cases t <;> rfl
  have hparts (m n : Nat) (e f : Int) :
      (compare f e).then (compare n m) = ((compare e f).then (compare m n)).swap := by
    rw [Ordering.swap_then, ← Std.OrientedCmp.eq_swap, ← Std.OrientedCmp.eq_swap]
  cases a with
  | notANumber => cases b <;> rfl
  | infinity s =>
      cases b with
      | infinity t => exact congrArg some (hsigns s t)
      | _ => cases s <;> rfl
  | zero s =>
      cases b with
      | infinity t => cases t <;> rfl
      | finite t n f hn => cases t <;> rfl
      | _ => rfl
  | finite s m e hm =>
      cases b with
      | notANumber => cases s <;> rfl
      | infinity t => cases t <;> rfl
      | zero t => cases s <;> rfl
      | finite t n f hn =>
          cases s <;> cases t
          · exact congrArg (fun order : Ordering => some order.swap) (hparts m n e f)
          · rfl
          · rfl
          · exact congrArg some (hparts m n e f)

theorem compare_self (h : a.isNaN = false) : a.compare a = some .eq := by
  cases a with
  | notANumber => cases h
  | infinity s => cases s <;> rfl
  | zero s => rfl
  | finite s m e hm => cases s <;> simp [Float.Model.UnpackedFloat.compare]

-- A bit pattern is no number only if its exponent is all ones and its mantissa is not zero.
theorem isNaN_unpack {bits : BitVec spec.numBits}
    (h : unpackExponent bits ≠ -1#_ ∨ unpackMantissa bits = 0#_) :
    (UnpackedFloat.unpack spec bits).isNaN = false := by
  unfold UnpackedFloat.unpack
  dsimp only
  split
  · rename_i hexponent
    rw [if_pos (h.resolve_left (absurd hexponent))]
    rfl
  · split
    · split <;> rfl
    · rfl

theorem isNaN_unpack_pack (ha : a.isNaN = false) :
    (UnpackedFloat.unpack spec (UnpackedFloat.pack spec a)).isNaN = false := by
  apply isNaN_unpack
  fun_cases UnpackedFloat.pack with
  | case1 => cases ha
  | case2 s => simp [packedInfinity]
  | case3 s => simp [packedZero]
  | case4 s m e hm biased hoverflow => simp [packedInfinity]
  | case5 s m e hm bits biased hfits hnormal =>
      left
      rw [unpackExponent_packComponents, BitVec.neg_one_eq_allOnes, ne_eq, ← BitVec.toNat_inj,
        BitVec.toNat_ofNat, BitVec.toNat_allOnes, Nat.mod_eq_of_lt (by omega)]
      omega
  | case6 s m e hm bits biased hfits hsubnormal =>
      left
      simp [Nat.pos_iff_ne_zero.mp spec.he]

theorem isNaN_pack (ha : a.isNaN = false) : (Float.Model.pack a).isNaN = false :=
  isNaN_unpack_pack ha

theorem isNaN_roundWithAccuracy (s : Sign) (mantissa : Nat) (exponent : Int)
    (accuracy : Accuracy) :
    (roundWithAccuracy spec s mantissa exponent accuracy).isNaN = false := by
  unfold roundWithAccuracy
  dsimp only
  split <;> rfl

theorem isNaN_unpackedOfInt (n : Int) : (UnpackedFloat.ofInt spec n).isNaN = false := by
  unfold UnpackedFloat.ofInt UnpackedFloat.normalize
  split
  · exact isNaN_roundWithAccuracy _ _ _ _
  · rfl
  · exact isNaN_roundWithAccuracy _ _ _ _

theorem isNaN_mul_finite (ha : a.isNaN = false) (s : Sign) (m : Nat) (e : Int) (hm : 0 < m) :
    (UnpackedFloat.mul spec a (.finite s m e hm)).isNaN = false := by
  cases a with
  | notANumber => cases ha
  | finite t n f hn => exact isNaN_roundWithAccuracy _ _ _ _
  | _ => rfl

theorem isNaN_neg (ha : a.isNaN = false) : a.neg.isNaN = false := by
  cases a with
  | notANumber => cases ha
  | _ => rfl

theorem isNaN_unpackedOfScientific (n : Nat) :
    (UnpackedFloat.ofScientific spec n 0).isNaN = false := by
  unfold UnpackedFloat.ofScientific
  split
  · rfl
  · split
    · rfl
    · split
      · rfl
      · rw [if_pos (Int.le_refl 0)]
        exact isNaN_mul_finite rfl _ _ _ _

theorem unpack_one : (Float.ofBits 0x3FF0000000000000).toModel.unpack =
    .finite .positive (2 ^ 52) (-52) (by decide) := by
  rfl

theorem isNaN_ofNat (n : Nat) : (Float.ofNat n).isNaN = false := by
  change (Float.ofScientific n false 0).isNaN = false
  unfold Float.ofScientific
  split
  · refine isNaN_pack ?_
    change (UnpackedFloat.mul _ _ (Float.ofBits 0x3FF0000000000000).toModel.unpack).isNaN = false
    rw [unpack_one]
    exact isNaN_mul_finite (isNaN_pack (isNaN_unpackedOfInt _)) _ _ _ _
  · exact isNaN_pack (isNaN_unpackedOfScientific n)

-- The double that is nearest to an integer is a number, or infinite.
theorem isNaN_ofInt (n : Int) : (Float.ofInt n).isNaN = false := by
  cases n with
  | ofNat n => exact isNaN_ofNat n
  | negSucc n => exact isNaN_pack (isNaN_neg (isNaN_ofNat (n + 1)))

end Double

theorem Date.compare_self (d : Date) : compare d d = .eq := by
  change ((compare d.year d.year).then (compare d.month d.month)).then (compare d.day d.day) = .eq
  simp

theorem DateTime.compare_self (t : DateTime) : compare t t = .eq := by
  change ((((compare t.date t.date).then (compare t.hour t.hour)).then
    (compare t.minute t.minute)).then (compare t.second t.second)).then
      (compare t.nano t.nano) = .eq
  simp [t.date.compare_self]

namespace Value

variable {x y : Float} {stored literal : Value}

-- Doubles are compared as the standard for them says.
theorem compareFloats_eq_compare (x y : Float) :
    compareFloats x y = x.toModel.unpack.compare y.toModel.unpack := by
  have hlt (x y : Float) : x < y ↔ x.toModel.unpack.compare y.toModel.unpack = some .lt := by
    change decide ((x.toModel.unpack.compare y.toModel.unpack == some .lt) = true) = true ↔ _
    rw [decide_eq_true_iff, beq_iff_eq]
  have hbeq : (x == y) = (x.toModel.unpack.compare y.toModel.unpack == some .eq) := rfl
  unfold compareFloats
  simp only [hlt, hbeq, Double.compare_swap x.toModel.unpack y.toModel.unpack]
  rcases x.toModel.unpack.compare y.toModel.unpack with _ | _ | _ | _ <;> rfl

theorem compareFloats_eq_none_iff :
    compareFloats x y = none ↔ x.isNaN = true ∨ y.isNaN = true := by
  rw [compareFloats_eq_compare]
  exact Double.compare_eq_none_iff

def Numeric.isNaN : Numeric → Bool
  | whole _ => false
  | real x => x.isNaN

theorem Numeric.compare?_eq_none_iff {a b : Numeric} :
    a.compare? b = none ↔ a.isNaN = true ∨ b.isNaN = true := by
  cases a with
  | whole m =>
      cases b with
      | whole n => simp [compare?, isNaN]
      | real y =>
          rw [compare?, compareFloats_eq_none_iff, Double.isNaN_ofInt]
          rfl
  | real x =>
      cases b with
      | whole n =>
          rw [compare?, compareFloats_eq_none_iff, Double.isNaN_ofInt]
          rfl
      | real y => exact compareFloats_eq_none_iff

-- Whether a value is a double that is no number.
def isNaN : Value → Bool
  | double x => x.isNaN
  | _ => false

-- A value cannot be compared with a literal exactly if a rule of the literal's kind may not test
-- fields of the value's kind, or if one of the two is no number.
theorem compare?_eq_none_iff :
    stored.compare? literal = none ↔
      literal.kind.accepts stored.kind = false ∨ stored.isNaN = true ∨ literal.isNaN = true := by
  cases stored <;> cases literal <;>
    simp [compare?, numeric?, Numeric.compare?_eq_none_iff, Numeric.isNaN, isNaN, kind,
      Kind.accepts, Kind.isNumeric]

-- Every value but one that is no number is equal to itself.
theorem compare?_self {value : Value} (h : value.isNaN = false) : value.compare? value = some .eq := by
  cases value with
  | double x =>
      change compareFloats x x = some .eq
      rw [compareFloats_eq_compare]
      exact Double.compare_self h
  | date d => exact congrArg some d.compare_self
  | datetime t => exact congrArg some t.compare_self
  | guid g =>
      change some (compare g.bits.toNat g.bits.toNat) = some .eq
      simp
  | boolean b => cases b <;> rfl
  | string s => simp [compare?]
  | _ => simp [compare?, numeric?, Numeric.compare?]

end Value

namespace Coercer

-- Stored values that are left as they are when they are brought to a kind are those that a rule of
-- the kind may test.
theorem fits_eq_accepts (value : Value) (kind : Kind) :
    fits value kind = kind.accepts value.kind := by
  cases value <;> cases kind <;> rfl

end Coercer

end Sieve

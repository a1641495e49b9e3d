import Sieve.Evaluation
import Sieve.Proofs.Double.Scientific

-- Integers against doubles. Each of the two stands for a number, but they are held against each
-- other through the double that is nearest to the integer.
namespace Sieve

namespace Double

variable {x y : Float} {n : Int}

-- The number that a finite double stands for.
def toRat (x : Float) : ℚ :=
  number x.toModel.unpack

-- The number that an integer becomes as a double.
def rounded (n : Int) : ℚ :=
  toRat (Float.ofInt n)

theorem IsNumber.isFinite {a : Float.Model.UnpackedFloat} (h : IsNumber a) :
    a.isFinite = true := by
  cases h <;> rfl

-- What is not finite equals no number.
theorem IsNumber.compare_ne_eq {a b : Float.Model.UnpackedFloat} (ha : IsNumber a)
    (hb : b.isFinite = false) : a.compare b ≠ some .eq := by
  cases b with
  | notANumber => cases ha <;> exact nofun
  | infinity s => cases ha <;> cases s <;> exact nofun
  | zero s | finite s m e hm => cases hb

theorem isFinite_ofInt (hn : n.natAbs ≤ 2 ^ 64) : (Float.ofInt n).isFinite = true :=
  (nearest_ofInt hn).1.isFinite

-- No finite double is nearer to an integer.
theorem nearest_rounded (hn : n.natAbs ≤ 2 ^ 64) (hy : y.isFinite = true) :
    |(n : ℚ) - rounded n| ≤ |(n : ℚ) - toRat y| :=
  (nearest_ofInt hn).2 _ (isNumber_of_isFinite hy)

theorem rounded_eq (hn : n.natAbs ≤ 2 ^ 53) : rounded n = n := by
  have hword : n.natAbs ≤ 2 ^ 64 := hn.trans (by decide)
  obtain ⟨b, hb, hnumber⟩ := exists_number_eq hn
  have hnearest := (nearest_ofInt hword).2 b hb
  rw [hnumber, sub_self, abs_zero, abs_nonpos_iff, sub_eq_zero] at hnearest
  exact hnearest.symm

-- A double that is not the nearest one lies on the same side of both.
theorem compare_rounded (hn : n.natAbs ≤ 2 ^ 64) (hy : y.isFinite = true)
    (h : toRat y ≠ rounded n ∨ rounded n = n) :
    compare (rounded n) (toRat y) = compare (n : ℚ) (toRat y) := by
  rcases h with hother | hexact
  · have hnearest := nearest_rounded hn hy
    rcases lt_trichotomy (n : ℚ) (toRat y) with hlt | heq | hlt
    · rw [abs_of_neg (sub_neg.mpr hlt)] at hnearest
      have hbound := neg_le_of_abs_le hnearest
      have hside : rounded n < toRat y := lt_of_le_of_ne (by linarith) hother.symm
      rw [compare_lt_iff_lt.mpr hlt, compare_lt_iff_lt.mpr hside]
    · rw [heq, sub_self, abs_zero, abs_nonpos_iff, sub_eq_zero] at hnearest
      exact absurd hnearest hother
    · rw [abs_of_pos (sub_pos.mpr hlt)] at hnearest
      have hbound := le_of_abs_le hnearest
      have hside : toRat y < rounded n := lt_of_le_of_ne (by linarith) hother
      rw [compare_gt_iff_gt.mpr hlt, compare_gt_iff_gt.mpr hside]
  · rw [hexact]

end Double

theorem Int64.natAbs_toInt_le (n : Int64) : n.toInt.natAbs ≤ 2 ^ 63 := by
  have hlow := Int64.le_toInt n
  have hhigh := Int64.toInt_lt n
  omega

namespace Value

variable {x y : Float}

theorem compareFloats_eq (hx : x.isFinite = true) (hy : y.isFinite = true) :
    compareFloats x y = some (compare (Double.toRat x) (Double.toRat y)) := by
  rw [compareFloats_eq_compare]
  exact (Double.isNumber_of_isFinite hx).compare_eq (Double.isNumber_of_isFinite hy)

theorem compare?_long_double (n : Int64) (hx : x.isFinite = true) :
    (long n).compare? (double x) = some (compare (Double.rounded n.toInt) (Double.toRat x)) := by
  have hn : n.toInt.natAbs ≤ 2 ^ 64 := (Int64.natAbs_toInt_le n).trans (by decide)
  exact compareFloats_eq (Double.isFinite_ofInt hn) hx

-- A double equals an integer exactly if it is finite and the nearest one.
theorem compare?_long_double_eq_iff {n : Int64} :
    (long n).compare? (double x) = some .eq ↔
      x.isFinite = true ∧ Double.rounded n.toInt = Double.toRat x := by
  cases hx : x.isFinite with
  | true => rw [compare?_long_double n hx, Option.some.injEq, compare_eq_iff_eq, eq_self, true_and]
  | false =>
      have hn : n.toInt.natAbs ≤ 2 ^ 64 := (Int64.natAbs_toInt_le n).trans (by decide)
      have hne := (Double.nearest_ofInt hn).1.compare_ne_eq hx
      rw [← compareFloats_eq_compare] at hne
      exact iff_of_false hne (fun h => Bool.false_ne_true h.1)

theorem compare?_double_long (n : Int64) (hx : x.isFinite = true) :
    (double x).compare? (long n) = some (compare (Double.toRat x) (Double.rounded n.toInt)) := by
  have hn : n.toInt.natAbs ≤ 2 ^ 64 := (Int64.natAbs_toInt_le n).trans (by decide)
  exact compareFloats_eq hx (Double.isFinite_ofInt hn)

end Value

end Sieve

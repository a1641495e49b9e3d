import Mathlib.Algebra.Group.Nat.Defs
import Sieve.Decimal.Integer

namespace Sieve.Decimal

theorem isDigit_eq (c : Char) : isDigit c = c.isDigit := by
  rw [Bool.eq_iff_iff]
  simp [isDigit, Char.isDigit, Char.le_def]

theorem isDigit_of_mem_natDigits {n : Nat} {c : Char} (h : c ∈ natDigits n) : isDigit c = true := by
  rw [isDigit_eq]
  exact Nat.isDigit_of_mem_toDigits (by decide) (by decide) h

theorem readNat_natDigits (n : Nat) : readNat (natDigits n) = some n := by
  have hne : natDigits n ≠ [] := Nat.toDigits_ne_nil
  have hall : (natDigits n).all isDigit = true :=
    List.all_eq_true.mpr fun _ => isDigit_of_mem_natDigits
  have hvalue : Nat.ofDigitChars 10 (natDigits n) 0 = n := Nat.ofDigitChars_ten_toDigits
  simp [readNat, hne, hall, hvalue, -List.all_eq_true]

-- Only zero is written with a zero in front.
theorem head?_natDigits_ne {n : Nat} (hn : 0 < n) : (natDigits n).head? ≠ some '0' := by
  have hdigit : ∀ d < 10, 0 < d → [Nat.digitChar d].head? ≠ some '0' := by decide
  induction n using Nat.strongRecOn with
  | ind n ih =>
      rw [natDigits, Nat.toDigits_eq_if (by decide)]
      split
      · rename_i hsmall
        exact hdigit n hsmall hn
      · rename_i hlarge
        have hrest := ih (n / 10) (Nat.div_lt_self hn (by decide)) (by omega)
        cases hdigits : natDigits (n / 10) with
        | nil => exact absurd hdigits Nat.toDigits_ne_nil
        | cons c digits =>
            rw [hdigits] at hrest
            rw [natDigits] at hdigits
            rw [hdigits]
            exact hrest

theorem isDigit_of_mem_paddedDigits {width n : Nat} {c : Char} (h : c ∈ paddedDigits width n) :
    isDigit c = true := by
  rcases List.mem_append.mp h with hzero | hdigit
  · rw [(List.mem_replicate.mp hzero).2]
    rfl
  · exact isDigit_of_mem_natDigits hdigit

theorem ofDigitChars_paddedDigits (width n : Nat) :
    Nat.ofDigitChars 10 (paddedDigits width n) 0 = n := by
  rw [paddedDigits, Nat.ofDigitChars_append, Nat.ofDigitChars_replicate_zero, Nat.mul_zero,
    natDigits, Nat.ofDigitChars_ten_toDigits]

theorem paddedDigits_ne_nil (width n : Nat) : paddedDigits width n ≠ [] := by
  simp [paddedDigits, natDigits, Nat.toDigits_ne_nil]

theorem length_paddedDigits {width n : Nat} (hwidth : 0 < width) (hn : n < 10 ^ width) :
    (paddedDigits width n).length = width := by
  have hlength : (natDigits n).length ≤ width :=
    (Nat.length_toDigits_le_iff (by decide) hwidth).mpr hn
  rw [paddedDigits, List.length_append, List.length_replicate]
  omega

end Sieve.Decimal

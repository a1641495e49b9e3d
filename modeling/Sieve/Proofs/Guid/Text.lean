import Mathlib.Algebra.Group.Nat.Defs
import Sieve.Guid

namespace Sieve.Guid

theorem length_lowHex (count n : Nat) : (lowHex count n).length = count := by
  induction count generalizing n with
  | zero => rfl
  | succ count ih => rw [lowHex, List.length_append, ih, List.length_singleton]

theorem hexValue?_hexDigits (m : Nat) (hm : m < 16) :
    hexValue? (hexDigits.getD m '0') = some m := by
  have hall : ∀ m < 16, hexValue? (hexDigits.getD m '0') = some m := by decide
  exact hall m hm

theorem readHex_append (value : Nat) (cs rest : List Char) :
    readHex value (cs ++ rest) = (readHex value cs).bind fun value => readHex value rest := by
  induction cs generalizing value with
  | nil => rfl
  | cons c cs ih =>
      rw [List.cons_append, readHex, readHex]
      cases hexValue? c with
      | none => rfl
      | some d => exact ih (16 * value + d)

-- The lowest digits of a number are read as what they leave of it.
theorem readHex_lowHex (count value n : Nat) :
    readHex value (lowHex count n) = some (16 ^ count * value + n % 16 ^ count) := by
  induction count generalizing n with
  | zero => simp [lowHex, readHex, Nat.mod_one]
  | succ count ih =>
      have hsplit : n % 16 ^ (count + 1) = n % 16 + 16 * (n / 16 % 16 ^ count) := by
        rw [Nat.pow_succ', Nat.mod_mul]
      rw [lowHex, readHex_append, ih, Option.bind_some, readHex,
        hexValue?_hexDigits _ (Nat.mod_lt n (by decide)), Option.bind_some, readHex, hsplit,
        Nat.pow_succ']
      congr 1
      rw [Nat.mul_add, Nat.mul_assoc]
      omega

-- Groups of the right lengths with dashes between them are read without the dashes.
theorem readGrouped_groups {a b c d e : List Char} (ha : a.length = 8) (hb : b.length = 4)
    (hc : c.length = 4) (hd : d.length = 4) (he : e.length = 12) :
    readGrouped (a ++ ['-'] ++ b ++ ['-'] ++ c ++ ['-'] ++ d ++ ['-'] ++ e) =
      readPlain (a ++ b ++ c ++ d ++ e) := by
  simp [readGrouped, ha, hb, hc, hd, he, List.drop_append,
    List.getElem?_append, List.drop_eq_nil_of_le]

theorem readPlain_digits (g : Guid) :
    readPlain (lowHex 8 (g.bits.toNat >>> 96) ++ lowHex 4 (g.bits.toNat >>> 80) ++
      lowHex 4 (g.bits.toNat >>> 64) ++ lowHex 4 (g.bits.toNat >>> 48) ++
        lowHex 12 g.bits.toNat) = some g := by
  have hlength : (lowHex 8 (g.bits.toNat >>> 96) ++ lowHex 4 (g.bits.toNat >>> 80) ++
      lowHex 4 (g.bits.toNat >>> 64) ++ lowHex 4 (g.bits.toNat >>> 48) ++
        lowHex 12 g.bits.toNat).length = 32 := by
    simp [length_lowHex]
  have hbits := g.bits.isLt
  rw [readPlain, if_pos hlength]
  simp only [readHex_append, readHex_lowHex, Option.bind_some, Option.map_some,
    Nat.shiftRight_eq_div_pow]
  have hnumber : ∀ n < 2 ^ 128, 16 ^ 12 * (16 ^ 4 * (16 ^ 4 * (16 ^ 4 * (16 ^ 8 * 0 +
      n / 2 ^ 96 % 16 ^ 8) + n / 2 ^ 80 % 16 ^ 4) + n / 2 ^ 64 % 16 ^ 4) +
        n / 2 ^ 48 % 16 ^ 4) + n % 16 ^ 12 = n := by
    intro n hn
    omega
  rw [hnumber _ hbits, BitVec.ofNat_toNat, BitVec.setWidth_eq]

-- An identifier is read as it is written.
theorem read_digits (g : Guid) : read g.digits = some g := by
  have hgrouped : readGrouped g.digits = some g := by
    rw [digits, readGrouped_groups (length_lowHex ..) (length_lowHex ..) (length_lowHex ..)
      (length_lowHex ..) (length_lowHex ..), readPlain_digits]
  have hplain : readPlain g.digits = none := by
    rw [readPlain, if_neg]
    simp [digits, length_lowHex]
  rw [read, hplain, hgrouped]
  rfl

end Sieve.Guid

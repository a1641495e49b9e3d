import Mathlib

-- The numbers that doubles stand for, and which of them a number is rounded to.
namespace Sieve.Double

-- What one more in the last digit makes, where that has the exponent `e`.
def ulp (e : Int) : ℚ :=
  2 ^ e

-- The number `m * 2 ^ e`.
def scaled (m : Nat) (e : Int) : ℚ :=
  m * ulp e

-- The first number that has 53 binary digits, the last of them with the exponent `e`.
def bottom (e : Int) : ℚ :=
  2 ^ 52 * ulp e

-- The form of a double, its sign and the largest exponent aside: there are 53 binary digits, or the
-- exponent is the least one.
structure Canonical (m : Nat) (e : Int) : Prop where
  short : m < 2 ^ 53
  least : -1074 ≤ e
  full : e = -1074 ∨ 2 ^ 52 ≤ m

-- Whether a number is rounded to `m * 2 ^ e`. It lies no further away than half of the last digit,
-- and than a quarter below a power of two, where doubles are twice as close. In the middle between
-- two doubles the even mantissa is taken.
structure Covers (m : Nat) (e : Int) (v : ℚ) : Prop where
  lower : scaled m e - ulp e / (if m = 2 ^ 52 ∧ e ≠ -1074 then 4 else 2) ≤ v
  upper : v ≤ scaled m e + ulp e / 2
  inner : m % 2 = 1 → scaled m e - ulp e / 2 < v ∧ v < scaled m e + ulp e / 2

variable {m n : Nat} {e f : Int} {v : ℚ}

theorem ulp_pos (e : Int) : 0 < ulp e :=
  zpow_pos (by norm_num) e

theorem two_zpow_sub_two (e : Int) : (2 : ℚ) ^ (e - 2) = ulp e / 4 := by
  rw [zpow_sub₀ (by norm_num), ulp]
  norm_num

theorem two_ulp_le (h : e < f) : 2 * ulp e ≤ ulp f := by
  have hpow : (2 : ℚ) ^ (e + 1) ≤ 2 ^ f := zpow_le_zpow_right₀ (by norm_num) (by omega)
  rwa [zpow_add_one₀ (by norm_num), mul_comm] at hpow

theorem scaled_zero (e : Int) : scaled 0 e = 0 := by
  rw [scaled, Nat.cast_zero, zero_mul]

theorem scaled_pos (hm : 0 < m) (e : Int) : 0 < scaled m e :=
  mul_pos (Nat.cast_pos.mpr hm) (ulp_pos e)

theorem scaled_le (h : m ≤ n) (e : Int) : scaled m e ≤ scaled n e :=
  mul_le_mul_of_nonneg_right (Nat.cast_le.mpr h) (ulp_pos e).le

theorem scaled_succ (m : Nat) (e : Int) : scaled (m + 1) e = scaled m e + ulp e := by
  rw [scaled, scaled, Nat.cast_succ]
  ring

-- Larger numbers of one exponent are a whole digit away.
theorem scaled_add_le (h : m < n) (e : Int) : scaled m e + ulp e ≤ scaled n e := by
  rw [← scaled_succ]
  exact scaled_le h e

theorem scaled_hidden (e : Int) : scaled (2 ^ 52) e = bottom e := by
  simp only [scaled, bottom, Nat.cast_pow, Nat.cast_ofNat]

theorem scaled_top (e : Int) : scaled (2 ^ 53) e = 2 * bottom e := by
  simp only [scaled, bottom, Nat.cast_pow, Nat.cast_ofNat]
  ring

theorem bottom_le (h : 2 ^ 52 ≤ m) (e : Int) : bottom e ≤ scaled m e := by
  rw [← scaled_hidden]
  exact scaled_le h e

namespace Canonical

theorem large (h : Canonical m e) (he : e ≠ -1074) : 2 ^ 52 ≤ m :=
  h.full.resolve_left he

theorem add_ulp_le (h : Canonical m e) : scaled m e + ulp e ≤ 2 * bottom e := by
  rw [← scaled_top]
  exact scaled_add_le h.short e

-- Below the doubles with a larger exponent there is a gap.
theorem add_half_le (h : Canonical m e) (hef : e < f) : scaled m e + ulp f / 2 ≤ bottom f := by
  have hdigits := h.add_ulp_le
  have hulp := two_ulp_le hef
  simp only [bottom] at hdigits ⊢
  linarith

end Canonical

namespace Covers

theorem half_le (h : Covers m e v) : scaled m e - ulp e / 2 ≤ v := by
  have hlower := h.lower
  have hpos := ulp_pos e
  split at hlower <;> linarith

theorem quarter_le (h : Covers (2 ^ 52) e v) (he : e ≠ -1074) : bottom e - ulp e / 4 ≤ v := by
  have hlower := h.lower
  rwa [if_pos ⟨rfl, he⟩, scaled_hidden] at hlower

-- A number that is a double is rounded to itself.
theorem self (m : Nat) (e : Int) : Covers m e (scaled m e) := by
  have hpos := ulp_pos e
  constructor
  · split <;> linarith
  · linarith
  · intro _
    constructor <;> linarith

theorem abs_sub_le (h : Covers m e v) : |v - scaled m e| ≤ ulp e / 2 := by
  have hlower := h.half_le
  have hupper := h.upper
  rw [abs_le]
  constructor <;> linarith

-- What is rounded to a double stays below the middle between the last double of its exponent and the
-- first one of the next.
theorem lt_bottom (h : Covers m e v) (hm : Canonical m e) (hef : e < f) :
    v < bottom f - ulp f / 4 := by
  have hpos := ulp_pos e
  have hulp := two_ulp_le hef
  have hupper : v < 2 * bottom e - ulp e / 2 := by
    by_cases hlast : m + 1 = 2 ^ 53
    · have hinner := (h.inner (by omega)).2
      have hdigits := hm.add_ulp_le
      linarith
    · have hshort := hm.short
      have hsucc := scaled_succ m e
      have hnext := scaled_add_le (show m + 1 < 2 ^ 53 by omega) e
      rw [scaled_top, hsucc] at hnext
      have hle := h.upper
      linarith
  simp only [bottom] at hupper ⊢
  linarith

theorem bottom_le (h : Covers m e v) (hm : Canonical m e) (he : e ≠ -1074) :
    bottom e - ulp e / 4 ≤ v := by
  rcases (hm.large he).eq_or_lt with rfl | hlt
  · exact h.quarter_le he
  · have hpos := ulp_pos e
    have hlower := h.half_le
    have hnext := scaled_add_le hlt e
    rw [scaled_hidden] at hnext
    linarith

-- Of two doubles with the same exponent the smaller one does not share a number with the larger.
theorem not_lt (h : Covers m e v) (h' : Covers n e v) : ¬m < n := by
  intro hlt
  have hnext := scaled_add_le hlt e
  have hupper := h.upper
  have hlower := h'.half_le
  by_cases hodd : m % 2 = 1
  · have hinner := (h.inner hodd).2
    linarith
  · by_cases hneighbour : n = m + 1
    · have hinner := (h'.inner (by omega)).1
      linarith
    · have hpos := ulp_pos e
      have hsucc := scaled_succ m e
      have hfar := scaled_add_le (show m + 1 < n by omega) e
      linarith

-- A number is rounded to one double only.
theorem unique (h : Covers m e v) (hm : Canonical m e) (h' : Covers n f v) (hn : Canonical n f) :
    m = n ∧ e = f := by
  have hless : ¬e < f := by
    intro hlt
    have hleast := hm.least
    have hbelow := h.lt_bottom hm hlt
    have habove := h'.bottom_le hn (by omega)
    linarith
  have hmore : ¬f < e := by
    intro hlt
    have hleast := hn.least
    have hbelow := h'.lt_bottom hn hlt
    have habove := h.bottom_le hm (by omega)
    linarith
  obtain rfl : e = f := by omega
  have hdigits := h.not_lt h'
  have hdigits' := h'.not_lt h
  exact ⟨by omega, rfl⟩

-- No other double is nearer.
theorem nearest (h : Covers m e v) (hm : Canonical m e) (hn : Canonical n f) :
    |v - scaled m e| ≤ |v - scaled n f| := by
  have hpos := ulp_pos e
  have hhalf := h.abs_sub_le
  have hlower := h.half_le
  have hupper := h.upper
  have habove := neg_abs_le (v - scaled n f)
  have hbelow := le_abs_self (v - scaled n f)
  rcases lt_trichotomy e f with hlt | rfl | hlt
  · have hleast := hm.least
    have hgap := hm.add_half_le hlt
    have hlarge := Double.bottom_le (hn.large (by omega)) f
    have hulp := two_ulp_le hlt
    linarith
  · rcases lt_trichotomy m n with hlt | rfl | hlt
    · have hnext := scaled_add_le hlt e
      linarith
    · exact le_refl _
    · have hnext := scaled_add_le hlt e
      linarith
  · have hleast := hn.least
    have he : e ≠ -1074 := by omega
    have hgap := hn.add_half_le hlt
    rcases (hm.large he).eq_or_lt with rfl | hlarge
    · have hquarter := h.quarter_le he
      rw [scaled_hidden]
      rcases le_total (bottom e) v with hge | hle
      · rw [abs_of_nonneg (by linarith)]
        linarith
      · rw [abs_of_nonpos (by linarith)]
        linarith
    · have hnext := scaled_add_le hlarge e
      rw [scaled_hidden] at hnext
      linarith

end Covers

end Sieve.Double

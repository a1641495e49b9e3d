import Sieve.Proofs.Double.Storage

-- Doubles that are made of decimal digits, and those nearest to integers.
namespace Sieve.Double

open Float.Model (UnpackedFloat Format)
open Float.Model.UnpackedFloat hiding pack unpack

variable {m n k : Nat} {e f : Int} {v : ℚ} {s : Sign} {a : UnpackedFloat} {x : Float}

-- Powers with an integer exponent from those with natural ones.
theorem zpow_mul_toNat {b : ℚ} (hb : b ≠ 0) (e : Int) :
    b ^ e * b ^ (-e).toNat = b ^ e.toNat := by
  rw [← zpow_natCast, ← zpow_natCast, ← zpow_add₀ hb]
  congr 1
  omega

-- A whole number of up to 53 binary digits has a canonical form.
theorem exists_canonical (hn : 0 < n) (hshort : n < 2 ^ 53) :
    ∃ m e, Canonical m e ∧ 2 ^ 52 ≤ m ∧ scaled m e = n := by
  have hlog : n.log2 < 53 := (Nat.log2_lt hn.ne').mpr hshort
  have hdigits : (n <<< (52 - n.log2)).log2 = 52 := by
    rw [log2_shiftLeft hn.ne']
    omega
  have hpos : n <<< (52 - n.log2) ≠ 0 := by
    rw [Nat.shiftLeft_eq]
    positivity
  obtain ⟨hlow, hhigh⟩ := (Nat.log2_eq_iff hpos).mp hdigits
  refine ⟨n <<< (52 - n.log2), 0 - (52 - n.log2 : Nat), ⟨hhigh, by omega, .inr hlow⟩, hlow, ?_⟩
  rw [scaled_shiftLeft, scaled_zero_exponent]

-- A number is rounded to the double that covers it.
theorem RoundsTo.eq_finite (h : RoundsTo s v a) (hm : 0 < m) (hcanonical : Canonical m e)
    (hcovers : Covers m e v) : a = .finite s m e hm := by
  cases h with
  | zero h =>
      have hzero : Canonical 0 (-1074) := ⟨by decide, by decide, .inl rfl⟩
      have hnone := (h.unique hzero hcovers hcanonical).1
      omega
  | finite hn hcanonical' h =>
      obtain ⟨rfl, rfl⟩ := h.unique hcanonical' hcovers hcanonical
      rfl

-- Such a number is no other after rounding.
theorem RoundsTo.exact (h : RoundsTo s n a) (hn : 0 < n) (hshort : n < 2 ^ 53) :
    ∃ m e hm, a = .finite s m e hm ∧ 2 ^ 52 ≤ m ∧ scaled m e = n := by
  obtain ⟨m, e, hcanonical, hlow, hscaled⟩ := exists_canonical hn hshort
  have hself := Covers.self m e
  rw [hscaled] at hself
  exact ⟨m, e, by omega, h.eq_finite _ hcanonical hself, hlow, hscaled⟩

theorem lt_limit (h : v ≤ ulp e) (he : e ≤ 972) : v < limit := by
  have hle : ulp e ≤ ulp 972 := zpow_le_zpow_right₀ (by norm_num) he
  have hpos := ulp_pos 972
  simp only [limit, bottom]
  linarith

theorem unpack_toFloat (hn : 0 < n) (hshort : n < 2 ^ 53) :
    ∃ m e hm, n.toUInt64.toFloat.toModel.unpack = .finite .positive m e hm ∧ 2 ^ 52 ≤ m ∧
      scaled m e = n := by
  have hword : n.toUInt64.toNat = n := by
    rw [Nat.toUInt64, UInt64.toNat_ofNat']
    exact Nat.mod_eq_of_lt (by omega)
  have hround := roundsTo_unpackedOfNat hn
  have hlimit : (n : ℚ) < limit := by
    refine lt_limit (e := 53) ?_ (by decide)
    change (n : ℚ) ≤ 2 ^ (53 : Nat)
    exact_mod_cast hshort.le
  have hunpack : n.toUInt64.toFloat.toModel.unpack = UnpackedFloat.ofNat .binary64 n := by
    change (Float.Model.pack (UnpackedFloat.ofUInt64 .binary64 n.toUInt64)).unpack = _
    rw [UnpackedFloat.ofUInt64, hword]
    exact hround.unpack_pack hlimit
  obtain ⟨m, e, hm, ha, hlow, hscaled⟩ := hround.exact hn hshort
  exact ⟨m, e, hm, hunpack.trans ha, hlow, hscaled⟩

-- Whether a double is a power of ten, with nothing lost.
def isPowerOfTen (k : Nat) : UnpackedFloat → Bool
  | .finite .positive m e _ => 2 ^ 52 ≤ m && m * 2 ^ e.toNat == 10 ^ k * 2 ^ (-e).toNat
  | _ => false

theorem scaled_of_isPowerOfTen (h : isPowerOfTen k a = true) :
    ∃ m e hm, a = .finite .positive m e hm ∧ 2 ^ 52 ≤ m ∧ scaled m e = 10 ^ k := by
  unfold isPowerOfTen at h
  split at h
  · rename_i m e hm
    rw [Bool.and_eq_true, decide_eq_true_iff, beq_iff_eq] at h
    obtain ⟨hlow, hpower⟩ := h
    refine ⟨m, e, hm, rfl, hlow, ?_⟩
    have hcast : (m : ℚ) * 2 ^ e.toNat = 10 ^ k * 2 ^ (-e).toNat := by exact_mod_cast hpower
    rw [← zpow_mul_toNat (by norm_num) e, ← mul_assoc] at hcast
    exact mul_right_cancel₀ (by positivity) hcast
  · cases h

theorem isPowerOfTen_table : ∀ k : Fin Float.exactlyRepresentablePowersOfTen.size,
    isPowerOfTen k Float.exactlyRepresentablePowersOfTen[k].toModel.unpack = true := by
  decide +kernel

-- The value that digits and an exponent stand for, the exponent given by its magnitude.
def decimal (m : Nat) (negative : Bool) (k : Nat) : ℚ :=
  if negative then m / 10 ^ k else m * 10 ^ k

-- Digits are rounded once, on the short way through doubles that are exact as well.
theorem roundsTo_floatOfScientific (hm : 0 < m) (negative : Bool) (hk : k ≤ 2048)
    (hlimit : decimal m negative k < limit) :
    RoundsTo .positive (decimal m negative k)
      (Float.ofScientific m negative k).toModel.unpack := by
  unfold Float.ofScientific
  split
  · rename_i hshort
    obtain ⟨p, e, hp, hleft, hlow, hdigits⟩ := unpack_toFloat hm hshort.1
    have hlarge : k < Float.exactlyRepresentablePowersOfTen.size := Nat.lt_succ_of_le hshort.2
    obtain ⟨q, f, hq, hright, -, hpower⟩ := scaled_of_isPowerOfTen (isPowerOfTen_table ⟨k, hlarge⟩)
    have hlog : 52 ≤ p.log2 := (Nat.le_log2 hp.ne').mpr hlow
    cases negative with
    | true =>
        have hround := @roundsTo_div _ _ e f hp hq .positive .positive
        rw [hdigits, hpower, ← hleft, ← hright] at hround
        exact hround.stored hlimit
    | false =>
        have hround := @roundsTo_mul _ _ e f hp hq .positive .positive (le_log2_mul hq hlog)
        rw [hdigits, hpower, ← hleft, ← hright] at hround
        exact hround.stored hlimit
  · cases negative with
    | true =>
        have hexponent : -(k : Int) = Int.negOfNat k := by cases k <;> rfl
        have hround := @roundsTo_ofScientific m (-(k : Int)) hm (by omega) (by omega)
        rw [zpow_neg, zpow_natCast, ← div_eq_mul_inv, hexponent] at hround
        exact hround.stored hlimit
    | false =>
        have hround := @roundsTo_ofScientific m k hm (by omega) (by omega)
        rw [zpow_natCast] at hround
        exact hround.stored hlimit

theorem roundsTo_ofNat (hn : 0 < n) (hsmall : n ≤ 2 ^ 64) :
    RoundsTo .positive n (Float.ofNat n).toModel.unpack := by
  have hdecimal : decimal n false 0 = n := by simp [decimal]
  have hlimit : decimal n false 0 < limit := by
    rw [hdecimal]
    refine lt_limit (e := 64) ?_ (by decide)
    change (n : ℚ) ≤ 2 ^ (64 : Nat)
    exact_mod_cast hsmall
  have hround := roundsTo_floatOfScientific hn false (by decide) hlimit
  rw [hdecimal] at hround
  exact hround

-- A rounded number is nearer than any other double, also one of the other sign.
theorem RoundsTo.nearest (h : RoundsTo .positive v a) (hv : 0 ≤ v) {b : UnpackedFloat}
    (hb : IsNumber b) : |v - number a| ≤ |v - number b| := by
  have hzero : Canonical 0 (-1074) := ⟨by decide, by decide, .inl rfl⟩
  have hcovers : ∃ m e, Covers m e v ∧ Canonical m e ∧ number a = scaled m e := by
    cases h with
    | zero h =>
        exact ⟨0, -1074, h, hzero, (scaled_zero _).symm⟩
    | finite hm hcanonical h => exact ⟨_, _, h, hcanonical, rfl⟩
  obtain ⟨m, e, hcovers, hcanonical, hnumber⟩ := hcovers
  have horigin := hcovers.nearest hcanonical hzero
  rw [scaled_zero, sub_zero, abs_of_nonneg hv] at horigin
  rw [hnumber]
  cases hb with
  | zero s =>
      refine horigin.trans (le_trans ?_ (le_abs_self _))
      rw [number_zero, sub_zero]
  | @finite n f s hn h' =>
      cases s with
      | positive => exact hcovers.nearest hcanonical h'
      | negative =>
          have hpos := scaled_pos hn f
          refine horigin.trans (le_trans ?_ (le_abs_self _))
          rw [number]
          linarith

theorem number_neg (a : UnpackedFloat) : number a.neg = -number a := by
  cases a with
  | finite s m e hm => cases s <;> simp [UnpackedFloat.neg, number]
  | _ => simp [UnpackedFloat.neg, number]

theorem IsNumber.neg (h : IsNumber a) : IsNumber a.neg := by
  cases h with
  | zero s => exact .zero _
  | finite s hm h => exact .finite _ hm h

theorem unpack_neg (h : IsNumber x.toModel.unpack) :
    (-x).toModel.unpack = x.toModel.unpack.neg := by
  change (Float.Model.pack x.toModel.unpack.neg).unpack = _
  cases hx : x.toModel.unpack with
  | zero s => exact unpack_pack_zero _
  | finite s m e hm =>
      exact unpack_pack_finite _ hm (canonical_of_unpack hx) (exponent_le_of_unpack hx)
  | notANumber | infinity s =>
      rw [hx] at h
      cases h

theorem RoundsTo.isNumber (h : RoundsTo s v a) : IsNumber a := by
  cases h with
  | zero h => exact .zero s
  | finite hm hcanonical h => exact .finite s hm hcanonical

-- The double for an integer of up to 64 bits: a number, and no other is nearer to the integer.
theorem nearest_ofInt {i : Int} (hi : i.natAbs ≤ 2 ^ 64) :
    IsNumber (Float.ofInt i).toModel.unpack ∧ ∀ b, IsNumber b →
      |(i : ℚ) - number (Float.ofInt i).toModel.unpack| ≤ |(i : ℚ) - number b| := by
  cases i with
  | ofNat n =>
      change IsNumber (Float.ofNat n).toModel.unpack ∧ _
      by_cases hn : n = 0
      · subst hn
        have hzero : (Float.ofNat 0).toModel.unpack = .zero .positive := rfl
        refine ⟨hzero ▸ .zero _, fun b _ => ?_⟩
        change |((0 : Nat) : ℚ) - number (Float.ofNat 0).toModel.unpack| ≤ _
        rw [hzero]
        simp
      · have hround := roundsTo_ofNat (Nat.pos_of_ne_zero hn) hi
        exact ⟨hround.isNumber, fun b hb => hround.nearest (Nat.cast_nonneg n) hb⟩
  | negSucc n =>
      have hround := roundsTo_ofNat (Nat.succ_pos n) hi
      have hneg : (Float.ofInt (.negSucc n)).toModel.unpack =
          (Float.ofNat (n + 1)).toModel.unpack.neg := unpack_neg hround.isNumber
      have hcast : ((Int.negSucc n : Int) : ℚ) = -((n + 1 : Nat) : ℚ) := by
        rw [Int.cast_negSucc]
      rw [hneg]
      refine ⟨hround.isNumber.neg, fun b hb => ?_⟩
      have hnearest := hround.nearest (Nat.cast_nonneg (n + 1)) hb.neg
      rw [number_neg] at hnearest
      rw [number_neg, hcast]
      have hswap (p q : ℚ) : |-p - -q| = |p - q| := by
        rw [neg_sub_neg, abs_sub_comm]
      have hswap' (p q : ℚ) : |-p - q| = |p - -q| := by
        rw [← hswap p (-q), neg_neg]
      rw [hswap, hswap']
      exact hnearest

-- Integers of up to 53 binary digits, and the first one behind them, are doubles.
theorem exists_number_eq {i : Int} (hi : i.natAbs ≤ 2 ^ 53) : ∃ b, IsNumber b ∧ number b = i := by
  have hnat : ∀ n : Nat, n ≤ 2 ^ 53 → ∃ b, IsNumber b ∧ number b = n := by
    intro n hn
    by_cases hzero : n = 0
    · exact ⟨.zero .positive, .zero _, by simp [hzero]⟩
    · by_cases hshort : n < 2 ^ 53
      · obtain ⟨m, e, hcanonical, hlow, hscaled⟩ :=
          exists_canonical (Nat.pos_of_ne_zero hzero) hshort
        exact ⟨.finite .positive m e (by omega), .finite _ _ hcanonical, hscaled⟩
      · obtain rfl : n = 2 ^ 53 := by omega
        refine ⟨.finite .positive (2 ^ 52) 1 (by decide), .finite _ _ ?_, ?_⟩
        · exact ⟨by decide, by decide, .inr (le_refl _)⟩
        · change scaled (2 ^ 52) (0 + 1) = _
          rw [scaled_hidden, bottom, ulp_succ, ulp, zpow_zero]
          norm_num
  obtain ⟨b, hb, hnumber⟩ := hnat i.natAbs hi
  rcases Int.natAbs_eq i with hpositive | hnegative
  · refine ⟨b, hb, hnumber.trans ?_⟩
    rw [← Int.cast_natCast, ← hpositive]
  · refine ⟨b.neg, hb.neg, ?_⟩
    rw [number_neg, hnumber, ← Int.cast_natCast, ← Int.cast_neg, ← hnegative]

end Sieve.Double

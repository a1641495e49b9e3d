import Sieve.Proofs.Double.Rounding

-- Doubles as they are stored, the numbers that they stand for, and how they compare.
namespace Sieve.Double

open Float.Model (UnpackedFloat Format)
open Float.Model.UnpackedFloat hiding pack unpack

variable {m n : Nat} {e f : Int} {v : ℚ} {s u : Sign} {a b : UnpackedFloat} {x y : Float}

theorem toNat_one_append (mantissa : BitVec 52) :
    (1#1 ++ mantissa).toNat = 2 ^ 52 + mantissa.toNat := by
  rw [BitVec.toNat_append, ← Nat.shiftLeft_add_eq_or_of_lt mantissa.isLt]
  rfl

-- The parts of a bit pattern in natural numbers.
theorem unpack_eq (bits : BitVec Format.binary64.numBits) :
    UnpackedFloat.unpack .binary64 bits =
      if (unpackExponent bits).toNat = 2047 then
        if (unpackMantissa bits).toNat = 0 then .infinity (.ofBitVec (unpackSign bits))
        else .notANumber
      else if (unpackExponent bits).toNat = 0 then
        if h : (unpackMantissa bits).toNat = 0 then .zero (.ofBitVec (unpackSign bits))
        else .finite (.ofBitVec (unpackSign bits)) (unpackMantissa bits).toNat (-1074)
          (Nat.pos_of_ne_zero h)
      else
        .finite (.ofBitVec (unpackSign bits)) (2 ^ 52 + (unpackMantissa bits).toNat)
          ((unpackExponent bits).toNat - 1075) (by omega) := by
  have hlargest : unpackExponent bits = -1#11 ↔ (unpackExponent bits).toNat = 2047 :=
    BitVec.toNat_inj.symm
  have hleast : unpackExponent bits = 0#11 ↔ (unpackExponent bits).toNat = 0 :=
    BitVec.toNat_inj.symm
  have hnone : unpackMantissa bits = 0#52 ↔ (unpackMantissa bits).toNat = 0 :=
    BitVec.toNat_inj.symm
  have hexponent : ((unpackExponent bits).toNat : Int) -
      ((Format.binary64.exponentBias : Nat) + (52 : Nat)) = (unpackExponent bits).toNat - 1075 := by
    change _ - ((1023 : Int) + 52) = _
    omega
  unfold UnpackedFloat.unpack
  dsimp only
  simp only [hlargest, hleast, hnone, hexponent, toNat_one_append]
  by_cases hsubnormal : (unpackExponent bits).toNat = 0
  · simp only [hsubnormal]
    rfl
  · simp only [if_neg hsubnormal]

-- What is stored is in canonical form.
theorem canonical_of_unpack {bits : BitVec Format.binary64.numBits} {hm : 0 < m}
    (h : UnpackedFloat.unpack .binary64 bits = .finite s m e hm) : Canonical m e := by
  have hmantissa : (unpackMantissa bits).toNat < 2 ^ 52 := (unpackMantissa bits).isLt
  rw [unpack_eq] at h
  split at h
  · split at h <;> cases h
  · rename_i hfinite
    have hexponent : (unpackExponent bits).toNat < 2 ^ 11 := (unpackExponent bits).isLt
    split at h
    · split at h
      · cases h
      · obtain ⟨⟩ := h
        exact ⟨by omega, by omega, .inl rfl⟩
    · obtain ⟨⟩ := h
      exact ⟨by omega, by omega, .inr (Nat.le_add_right _ _)⟩

theorem unpack_pack_normal (s : Sign) (hm : 0 < m) (hlow : 2 ^ 52 ≤ m) (hhigh : m < 2 ^ 53)
    (he : -1074 ≤ e) (he' : e ≤ 971) :
    (Float.Model.pack (.finite s m e hm)).unpack = .finite s m e hm := by
  have hlog : m.log2 = 52 := (Nat.log2_eq_iff hm.ne').mpr ⟨hlow, hhigh⟩
  have hbiased : (e + (Format.binary64.exponentBias : Nat) + (52 : Nat)).toNat = (e + 1075).toNat := by
    change (e + 1023 + 52).toNat = _
    omega
  have hbits : UnpackedFloat.pack .binary64 (.finite s m e hm) =
      packComponents .binary64 s (BitVec.ofNat 11 (e + 1075).toNat) (BitVec.ofNat 52 m) := by
    unfold UnpackedFloat.pack
    dsimp only
    rw [hbiased, if_neg (by omega), if_pos (by rw [hlog]; rfl)]
  have hexponent : (BitVec.ofNat 11 (e + 1075).toNat).toNat = (e + 1075).toNat := by
    rw [BitVec.toNat_ofNat]
    exact Nat.mod_eq_of_lt (by omega)
  have hlargest : BitVec.ofNat 11 (e + 1075).toNat ≠ -1#11 := by
    intro heq
    rw [heq] at hexponent
    change 2047 = _ at hexponent
    omega
  have hzero : BitVec.ofNat 11 (e + 1075).toNat ≠ 0#11 := by
    intro heq
    rw [heq] at hexponent
    change 0 = _ at hexponent
    omega
  have hmantissa : (1#1 ++ BitVec.ofNat 52 m).toNat = m := by
    rw [toNat_one_append, BitVec.toNat_ofNat]
    omega
  change UnpackedFloat.unpack .binary64 (UnpackedFloat.pack .binary64 _) = _
  rw [hbits]
  unfold UnpackedFloat.unpack
  simp only [unpackExponent_packComponents, unpackMantissa_packComponents,
    unpackSign_packComponents, Sign.ofBitVec_toBitVec, hmantissa]
  rw [if_neg hlargest, if_neg hzero]
  congr 1
  rw [hexponent]
  change ((e + 1075).toNat : Int) - (1023 + 52) = e
  omega

theorem unpack_pack_subnormal (s : Sign) (hm : 0 < m) (hhigh : m < 2 ^ 52) :
    (Float.Model.pack (.finite s m (-1074) hm)).unpack = .finite s m (-1074) hm := by
  have hlog : m.log2 < 52 := (Nat.log2_lt hm.ne').mpr hhigh
  have hbits : UnpackedFloat.pack .binary64 (.finite s m (-1074) hm) =
      packComponents .binary64 s 0#11 (BitVec.ofNat 52 m) := by
    unfold UnpackedFloat.pack
    dsimp only
    rw [if_neg (by decide), if_neg]
    change m.log2 + 1 ≠ 53
    omega
  have hmantissa : (BitVec.ofNat 52 m).toNat = m := by
    rw [BitVec.toNat_ofNat]
    exact Nat.mod_eq_of_lt hhigh
  have hne : BitVec.ofNat 52 m ≠ 0#52 := by
    intro heq
    rw [heq] at hmantissa
    change 0 = _ at hmantissa
    omega
  change UnpackedFloat.unpack .binary64 (UnpackedFloat.pack .binary64 _) = _
  rw [hbits]
  unfold UnpackedFloat.unpack
  simp only [unpackExponent_packComponents, unpackMantissa_packComponents,
    unpackSign_packComponents, Sign.ofBitVec_toBitVec, hmantissa]
  rw [if_neg (by decide), if_pos trivial, dif_neg hne]
  rfl

-- What is in canonical form and not too large is stored as it is.
theorem unpack_pack_finite (s : Sign) (hm : 0 < m) (h : Canonical m e) (he : e ≤ 971) :
    (Float.Model.pack (.finite s m e hm)).unpack = .finite s m e hm := by
  by_cases hlarge : 2 ^ 52 ≤ m
  · exact unpack_pack_normal s hm hlarge h.short h.least he
  · obtain rfl : e = -1074 := h.full.resolve_right hlarge
    exact unpack_pack_subnormal s hm (by omega)

theorem unpack_pack_zero (s : Sign) : (Float.Model.pack (.zero s)).unpack = .zero s :=
  unpack_packedZero

-- From here on numbers are rounded to an infinity.
def limit : ℚ :=
  bottom 972 - ulp 972 / 4

theorem Covers.lt_limit (h : Covers m e v) (hm : Canonical m e) (he : e ≤ 971) : v < limit :=
  h.lt_bottom hm (by omega)

theorem RoundsTo.unpack_pack (h : RoundsTo s v a) (hv : v < limit) :
    (Float.Model.pack a).unpack = a := by
  cases h with
  | zero h => exact unpack_pack_zero s
  | @finite m e hm hcanonical h =>
      refine unpack_pack_finite s hm hcanonical ?_
      by_contra hlarge
      have hbottom := h.bottom_le hcanonical (by omega)
      have hdigit : ulp 972 ≤ ulp e := zpow_le_zpow_right₀ (by norm_num) (by omega)
      simp only [limit, bottom] at hv hbottom
      linarith

theorem RoundsTo.stored (h : RoundsTo s v a) (hv : v < limit) :
    RoundsTo s v (Float.Model.pack a).unpack :=
  (h.unpack_pack hv).symm ▸ h

theorem ext_unpack (h : x.toModel.unpack = y.toModel.unpack) : x = y := by
  have hbits := (unpack_inj_of_valid x.toModel.valid y.toModel.valid).mp h
  rw [← Float.toBits_inj]
  exact UInt64.toBitVec_inj.mp hbits

-- Numbers in canonical form are ordered by their exponents first.
theorem Canonical.scaled_lt (h : Canonical m e) (h' : Canonical n f) (hef : e < f) :
    scaled m e < scaled n f := by
  have hleast := h.least
  have hgap := h.add_half_le hef
  have hlarge := bottom_le (h'.large (by omega)) f
  have hpos := ulp_pos f
  linarith

theorem scaled_lt (h : m < n) (e : Int) : scaled m e < scaled n e := by
  have hnext := scaled_add_le h e
  have hpos := ulp_pos e
  linarith

theorem compare_scaled (h : Canonical m e) (h' : Canonical n f) :
    (compare e f).then (compare m n) = compare (scaled m e) (scaled n f) := by
  rcases lt_trichotomy e f with hlt | rfl | hlt
  · rw [compare_lt_iff_lt.mpr hlt, compare_lt_iff_lt.mpr (h.scaled_lt h' hlt)]
    rfl
  · rw [compare_eq_iff_eq.mpr rfl]
    change compare m n = _
    rcases lt_trichotomy m n with hlt | rfl | hlt
    · rw [compare_lt_iff_lt.mpr hlt, compare_lt_iff_lt.mpr (scaled_lt hlt e)]
    · rw [compare_eq_iff_eq.mpr rfl, compare_eq_iff_eq.mpr rfl]
    · rw [compare_gt_iff_gt.mpr hlt, compare_gt_iff_gt.mpr (scaled_lt hlt e)]
  · rw [compare_gt_iff_gt.mpr hlt, compare_gt_iff_gt.mpr (h'.scaled_lt h hlt)]
    rfl

-- A number in canonical form, or a zero.
inductive IsNumber : UnpackedFloat → Prop where
  | zero (s : Sign) : IsNumber (.zero s)
  | finite {m : Nat} {e : Int} (s : Sign) (hm : 0 < m) (h : Canonical m e) :
      IsNumber (.finite s m e hm)

theorem isNumber_of_isFinite (h : x.isFinite = true) : IsNumber x.toModel.unpack := by
  change x.toModel.unpack.isFinite = true at h
  cases hx : x.toModel.unpack with
  | notANumber | infinity s =>
      rw [hx] at h
      cases h
  | zero s => exact .zero s
  | finite s m e hm => exact .finite s hm (canonical_of_unpack hx)

-- The number that a double stands for. What is none counts as zero.
def number : UnpackedFloat → ℚ
  | .finite .positive m e _ => scaled m e
  | .finite .negative m e _ => -scaled m e
  | _ => 0

@[simp]
theorem number_zero (s : Sign) : number (.zero s) = 0 :=
  rfl

theorem compare_neg (p q : ℚ) : compare (-p) (-q) = (compare p q).swap := by
  rcases lt_trichotomy p q with hlt | rfl | hlt
  · rw [compare_lt_iff_lt.mpr hlt, compare_gt_iff_gt.mpr (neg_lt_neg hlt)]
    rfl
  · rw [compare_eq_iff_eq.mpr rfl, compare_eq_iff_eq.mpr rfl]
    rfl
  · rw [compare_gt_iff_gt.mpr hlt, compare_lt_iff_lt.mpr (neg_lt_neg hlt)]
    rfl

-- Doubles are compared as the numbers that they stand for.
theorem IsNumber.compare_eq (ha : IsNumber a) (hb : IsNumber b) :
    a.compare b = some (compare (number a) (number b)) := by
  cases ha with
  | zero s =>
      cases hb with
      | zero u => exact congrArg some (compare_eq_iff_eq.mpr rfl).symm
      | finite u hn h =>
          have hpos := scaled_pos hn
          cases u with
          | positive => exact congrArg some (compare_lt_iff_lt.mpr (hpos _)).symm
          | negative => exact congrArg some (compare_gt_iff_gt.mpr (neg_lt_zero.mpr (hpos _))).symm
  | @finite m e s hm h =>
      have hpos := scaled_pos hm e
      cases hb with
      | zero u =>
          cases s with
          | positive => exact congrArg some (compare_gt_iff_gt.mpr hpos).symm
          | negative => exact congrArg some (compare_lt_iff_lt.mpr (neg_lt_zero.mpr hpos)).symm
      | @finite n f u hn h' =>
          have hpos' := scaled_pos hn f
          cases s with
          | positive =>
              cases u with
              | positive => exact congrArg some (compare_scaled h h')
              | negative =>
                  have hlt : -scaled n f < scaled m e := by linarith
                  exact congrArg some (compare_gt_iff_gt.mpr hlt).symm
          | negative =>
              cases u with
              | positive =>
                  have hlt : -scaled m e < scaled n f := by linarith
                  exact congrArg some (compare_lt_iff_lt.mpr hlt).symm
              | negative =>
                  have hswap := (congrArg Ordering.swap (compare_scaled h h')).trans
                    (compare_neg _ _).symm
                  exact congrArg some hswap

end Sieve.Double

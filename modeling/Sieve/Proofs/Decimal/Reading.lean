import Sieve.Decimal.Layout
import Sieve.Decimal.Reading
import Sieve.Proofs.Calendar.Text
import Sieve.Proofs.Decimal.Shortest
import Sieve.Proofs.Value.Widths

-- Texts of numbers: a double is read back from its text as it was.
namespace Sieve.Decimal

open Calendar (EndsDigits)
open Double (ulp scaled Covers Canonical RoundsTo limit)
open Float.Model (UnpackedFloat)

variable {cs digits fraction whole : List Char} {d : Nat} {k : Int} {x : Float} {v : ℚ}
  {s : UnpackedFloat.Sign}

theorem takeDigits_append {rest : List Char} (hdigits : ∀ c ∈ digits, isDigit c = true)
    (hrest : EndsDigits rest) : takeDigits (digits ++ rest) = (digits, rest) := by
  rw [takeDigits, Calendar.takeWhile_append_of_endsDigits hdigits hrest,
    Calendar.dropWhile_append_of_endsDigits hdigits hrest]

-- A text of digits, with a point before the last of them or without, that stands for `d * 10 ^ k`.
inductive Written : Nat → Int → List Char → Prop where
  | whole {digits : List Char} (hne : digits ≠ []) (hdigits : ∀ c ∈ digits, isDigit c = true) :
      Written (Nat.ofDigitChars 10 digits 0) 0 digits
  | point {whole fraction : List Char} (hne : whole ≠ []) (hwhole : ∀ c ∈ whole, isDigit c = true)
      (hfraction : ∀ c ∈ fraction, isDigit c = true) :
      Written (Nat.ofDigitChars 10 (whole ++ fraction) 0) (-fraction.length)
        (whole ++ '.' :: fraction)

theorem Written.readUnsigned_eq (h : Written d k cs) :
    readUnsigned cs = some (nearestFloat d k) := by
  have hnil : EndsDigits [] := nofun
  cases h with
  | whole hne hdigits =>
      have htake := takeDigits_append hdigits hnil
      rw [List.append_nil] at htake
      simp [readUnsigned, htake, hne, readExponent]
  | @point whole fraction hne hwhole hfraction =>
      have hpoint : EndsDigits ('.' :: fraction) := Calendar.endsDigits_cons (by decide) fraction
      have htake := takeDigits_append hwhole hpoint
      have hrest := takeDigits_append hfraction hnil
      rw [List.append_nil] at hrest
      simp [readUnsigned, htake, hrest, hne, readExponent]

-- The text of digits and an exponent, if it has a point or not, stands for the same number.
theorem written_positional (s : Scientific) :
    ∃ d k, Written d k (positional "" s) ∧ (d : ℚ) * 10 ^ k = s.digits * 10 ^ s.exponent ∧
      k.natAbs ≤ s.exponent.natAbs := by
  have hdigits : ∀ c ∈ natDigits s.digits, isDigit c = true := fun _ => isDigit_of_mem_natDigits
  have hzeros (n : Nat) : ∀ c ∈ List.replicate n '0', isDigit c = true := by
    intro c hc
    rw [(List.mem_replicate.mp hc).2]
    rfl
  have hvalue : Nat.ofDigitChars 10 (natDigits s.digits) 0 = s.digits :=
    Nat.ofDigitChars_ten_toDigits
  have hne : natDigits s.digits ≠ [] := Nat.toDigits_ne_nil
  unfold positional
  dsimp only
  split
  · rename_i hwhole
    have hnil : "".toList = [] := rfl
    rw [hnil, List.append_nil]
    refine ⟨_, _, .whole (List.append_ne_nil_of_left_ne_nil hne _) ?_, ?_, Nat.zero_le _⟩
    · exact fun c hc => (List.mem_append.mp hc).elim (hdigits c) (hzeros _ c)
    · have hpower : (10 : ℚ) ^ s.exponent = 10 ^ s.exponent.toNat := by
        rw [← zpow_natCast, Int.toNat_of_nonneg hwhole]
      rw [Nat.ofDigitChars_append, hvalue, Nat.ofDigitChars_replicate_zero, hpower, zpow_zero]
      push_cast
      ring
  · rename_i hsmall
    have hpoint (whole fraction : List Char) (hne : whole ≠ [])
        (hwhole : ∀ c ∈ whole, isDigit c = true) (hfraction : ∀ c ∈ fraction, isDigit c = true)
        (hdigits : Nat.ofDigitChars 10 (whole ++ fraction) 0 = s.digits)
        (hlength : fraction.length = s.exponent.natAbs) :
        ∃ d k, Written d k (whole ++ '.' :: fraction) ∧
          (d : ℚ) * 10 ^ k = s.digits * 10 ^ s.exponent ∧ k.natAbs ≤ s.exponent.natAbs := by
      have hexponent : -(fraction.length : Int) = s.exponent := by omega
      refine ⟨_, _, .point hne hwhole hfraction, ?_, by omega⟩
      rw [hdigits, hexponent]
    split
    · rename_i hfew
      refine hpoint _ _ ?_ (fun c hc => hdigits c (List.mem_of_mem_take hc))
        (fun c hc => hdigits c (List.mem_of_mem_drop hc)) ?_ ?_
      · rw [ne_eq, List.take_eq_nil_iff, not_or]
        exact ⟨by omega, hne⟩
      · rw [List.take_append_drop, hvalue]
      · rw [List.length_drop]
        omega
    · rename_i hmany
      refine hpoint ['0'] (List.replicate (s.exponent.natAbs - _) '0' ++ natDigits s.digits)
        (List.cons_ne_nil _ _) (hzeros 1)
        (fun c hc => (List.mem_append.mp hc).elim (hzeros _ c) (hdigits c)) ?_ ?_
      · rw [List.singleton_append, Nat.ofDigitChars_cons, Nat.ofDigitChars_append,
          Nat.ofDigitChars_replicate_zero]
        exact hvalue
      · rw [List.length_append, List.length_replicate]
        omega

-- A number lies between the powers of ten that its digits tell.
theorem natDigits_bounds (hd : 0 < d) :
    10 ^ ((natDigits d).length - 1) ≤ d ∧ d < 10 ^ (natDigits d).length := by
  have hlength : 0 < (natDigits d).length := List.length_pos_of_ne_nil Nat.toDigits_ne_nil
  have hle {n : Nat} (hn : 0 < n) : (natDigits d).length ≤ n ↔ d < 10 ^ n :=
    Nat.length_toDigits_le_iff (by decide) hn
  refine ⟨?_, (hle hlength).mp (Nat.le_refl _)⟩
  by_cases hone : (natDigits d).length = 1
  · rw [hone]
    exact hd
  · by_contra hless
    have hshort := (hle (show 0 < (natDigits d).length - 1 by omega)).mpr (by omega)
    omega

theorem limit_le : limit ≤ 10 ^ (400 : Int) := by
  have hbottom : Double.bottom 972 = 2 ^ (1024 : Int) := by
    rw [Double.bottom, ulp, ← zpow_natCast, ← zpow_add₀ (by norm_num)]
    rfl
  have hpower : Double.bottom 972 ≤ 10 ^ (400 : Int) :=
    hbottom.trans_le (two_zpow_le (n := 400) (by decide))
  exact (sub_le_self _ (div_nonneg (Double.ulp_pos 972).le (by norm_num))).trans hpower

theorem ten_zpow_le_ulp : (10 : ℚ) ^ (-400 : Int) ≤ ulp (-1075) :=
  ten_zpow_neg_le (i := 1075) (n := 400) (by decide)

-- Numbers that are neither too large nor too small are rounded once.
theorem roundsTo_nearestFloat (hd : 0 < d) (hk : k.natAbs ≤ 2048)
    (hlow : ulp (-1075) ≤ d * 10 ^ k) (hhigh : (d : ℚ) * 10 ^ k < limit) :
    RoundsTo .positive (d * 10 ^ k) (nearestFloat d k).toModel.unpack := by
  obtain ⟨hleast, hmost⟩ := natDigits_bounds hd
  have hlength : 0 < (natDigits d).length := List.length_pos_of_ne_nil Nat.toDigits_ne_nil
  generalize hn : (natDigits d).length = n at hleast hmost hlength
  have hten : (0 : ℚ) < 10 ^ k := by positivity
  have hlarge : ¬400 < k + n := by
    intro hlarge
    have hvalue : (10 : ℚ) ^ (n - 1) * 10 ^ k ≤ d * 10 ^ k :=
      mul_le_mul_of_nonneg_right (by exact_mod_cast hleast) hten.le
    have hpower : (10 : ℚ) ^ (400 : Int) ≤ 10 ^ (n - 1) * 10 ^ k := by
      rw [← zpow_natCast, ← zpow_add₀ (by norm_num)]
      exact zpow_le_zpow_right₀ (by norm_num) (by omega)
    have hlimit := limit_le
    linarith
  have hsmall : ¬k + n < -400 := by
    intro hsmall
    have hvalue : (d : ℚ) * 10 ^ k < 10 ^ n * 10 ^ k :=
      mul_lt_mul_of_pos_right (by exact_mod_cast hmost) hten
    have hpower : (10 : ℚ) ^ n * 10 ^ k ≤ 10 ^ (-400 : Int) := by
      rw [← zpow_natCast, ← zpow_add₀ (by norm_num)]
      exact zpow_le_zpow_right₀ (by norm_num) (by omega)
    have hlimit := ten_zpow_le_ulp
    linarith
  have hzero : ¬(d == 0) = true := by
    rw [beq_iff_eq]
    omega
  have hdecimal : Double.decimal d (k < 0) k.natAbs = d * 10 ^ k := by
    rw [Double.decimal]
    by_cases hnegative : k < 0
    · have habs : -(k.natAbs : Int) = k := by omega
      rw [if_pos (decide_eq_true hnegative), div_eq_mul_inv, ← zpow_natCast, ← zpow_neg, habs]
    · have habs : (k.natAbs : Int) = k := by omega
      rw [if_neg (by simpa using hnegative), ← zpow_natCast, habs]
  unfold nearestFloat
  dsimp only
  rw [hn, if_neg hzero, if_neg hlarge, if_neg hsmall, ← hdecimal]
  exact Double.roundsTo_floatOfScientific hd _ hk (hdecimal.symm ▸ hhigh)

-- The text of a double that is a number, behind its sign.
inductive Body : List Char → Prop where
  | written {d : Nat} {k : Int} {cs : List Char} (h : Written d k cs) : Body cs
  | infinite : Body ['i', 'n', 'f']

def signChars (x : Float) : List Char :=
  if isNegative x then ['-'] else []

def signed (x y : Float) : Float :=
  if isNegative x then -y else y

theorem unpack_signed {y : Float} (h : Double.IsNumber y.toModel.unpack) :
    (signed x y).toModel.unpack =
      if isNegative x then y.toModel.unpack.neg else y.toModel.unpack := by
  rw [signed]
  split
  · exact Double.unpack_neg h
  · rfl

-- A magnitude that is read back makes the double it was taken from.
theorem signed_eq {y : Float} {m : Nat} {e : Int} {hm : 0 < m}
    (hx : x.toModel.unpack = .finite (sign x) m e hm)
    (hy : y.toModel.unpack = .finite .positive m e hm) : signed x y = x := by
  have hcanonical := Double.canonical_of_unpack hy
  refine Double.ext_unpack ?_
  rw [unpack_signed (hy ▸ .finite _ hm hcanonical), hx, hy, sign]
  split <;> rfl

theorem written_zero : Written 0 0 ['0'] :=
  show Written (Nat.ofDigitChars 10 ['0'] 0) 0 ['0'] from
    .whole (List.cons_ne_nil _ _) (List.forall_mem_singleton.mpr rfl)

-- The fewest digits for a double are read as its magnitude.
theorem exists_written_shortest {b : Binary} {hm : 0 < b.mantissa}
    (hx : x.toModel.unpack = .finite s b.mantissa b.exponent hm)
    (hclose : b.closeBelow = true ↔ b.mantissa = 2 ^ 52 ∧ b.exponent ≠ -1074) (tie : Tie) :
    ∃ d k, Written d k (positional "" (b.shortest tie)) ∧
      (nearestFloat d k).toModel.unpack = .finite .positive b.mantissa b.exponent hm := by
  have hcanonical := Double.canonical_of_unpack hx
  have he := Double.exponent_le_of_unpack hx
  have hleast := hcanonical.least
  obtain ⟨hcovers, hexponent⟩ := Binary.covers_shortest hcanonical hm he hclose tie
  obtain ⟨d, k, hwritten, hvalue, hk⟩ := written_positional (b.shortest tie)
  rw [← hvalue] at hcovers
  have hlow : ulp (-1075) ≤ d * 10 ^ k := by
    have hhalf := hcovers.half_le
    have hone := Double.scaled_le hm b.exponent
    have hulp := Double.two_ulp_le (show -1075 < b.exponent by omega)
    rw [Nat.succ_eq_add_one, Double.scaled_succ, Double.scaled_zero] at hone
    linarith
  have hd : 0 < d := by
    refine Nat.pos_of_ne_zero fun hzero => ?_
    have hpos := Double.ulp_pos (-1075)
    rw [hzero, Nat.cast_zero, zero_mul] at hlow
    linarith
  have hrounds := roundsTo_nearestFloat hd (by omega) hlow (hcovers.lt_limit hcanonical he)
  exact ⟨d, k, hwritten, hrounds.eq_finite hm hcanonical hcovers⟩

theorem renderFloat_of_isNaN (hx : x.isNaN = true) : renderFloat x = "NaN" := by
  change x.toModel.unpack.isNaN = true at hx
  have hstores := stores_magnitude x
  simp only [renderFloat, Layout.render]
  generalize x.toModel.unpack = a at hstores hx
  generalize magnitude x = magnitude at hstores
  cases hstores with
  | nan => rfl
  | _ => cases hx

-- A double that is a number is written with a sign and with what is read as its magnitude.
theorem toList_renderFloat (hx : x.isNaN = false) :
    ∃ body y, (renderFloat x).toList = signChars x ++ body ∧ Body body ∧
      (readUnsigned body <|> readWord body) = some y ∧ signed x y = x := by
  have hsign : (if isNegative x then "-" else "").toList = signChars x := by
    rw [signChars]
    split <;> rfl
  have hstores := stores_magnitude x
  simp only [renderFloat, Layout.render]
  generalize hunpack : x.toModel.unpack = a at hstores
  generalize magnitude x = magnitude at hstores
  cases hstores with
  | nan =>
      change x.toModel.unpack.isNaN = false at hx
      rw [hunpack] at hx
      cases hx
  | infinite =>
      refine ⟨_, 1 / 0, by rw [String.toList_append, hsign]; rfl, .infinite, rfl, ?_⟩
      refine Double.ext_unpack ?_
      rw [hunpack, signed, sign]
      split <;> rfl
  | zero =>
      refine ⟨_, 0, by simp [hsign, plain], .written written_zero, ?_, ?_⟩
      · rw [written_zero.readUnsigned_eq]
        rfl
      · refine Double.ext_unpack ?_
        rw [hunpack, signed, sign]
        split <;> rfl
  | @finite b hm hclose =>
      obtain ⟨d, k, hwritten, hnearest⟩ := exists_written_shortest hunpack hclose plain.tie
      refine ⟨_, nearestFloat d k, ?_, .written hwritten, ?_, signed_eq hunpack hnearest⟩
      · simp [hsign, plain]
      · rw [hwritten.readUnsigned_eq]
        rfl

theorem takeSign_of_isDigit {c : Char} (hc : isDigit c = true) (cs : List Char) :
    takeSign (c :: cs) = (false, c :: cs) := by
  unfold takeSign
  split
  · rename_i heq
    obtain ⟨rfl, -⟩ := List.cons.inj heq
    cases hc
  · rename_i heq
    obtain ⟨rfl, -⟩ := List.cons.inj heq
    cases hc
  · rfl

theorem Body.takeSign_eq (h : Body cs) : takeSign cs = (false, cs) := by
  have hdigit {cs : List Char} (rest : List Char) (hne : cs ≠ [])
      (hdigits : ∀ c ∈ cs, isDigit c = true) : takeSign (cs ++ rest) = (false, cs ++ rest) := by
    obtain ⟨c, others, rfl⟩ := List.exists_cons_of_ne_nil hne
    exact takeSign_of_isDigit (hdigits c (.head _)) (others ++ rest)
  cases h with
  | infinite => rfl
  | written h =>
      cases h with
      | whole hne hdigits => exact List.append_nil cs ▸ hdigit [] hne hdigits
      | point hne hwhole hfraction => exact hdigit _ hne hwhole

-- A double that is a number is read as it was written.
theorem readFloat_renderFloat (hx : x.isNaN = false) :
    readFloat (renderFloat x).toList = some x := by
  obtain ⟨body, y, htext, hbody, hread, hsigned⟩ := toList_renderFloat hx
  have htake : takeSign (signChars x ++ body) = (isNegative x, body) := by
    rw [signChars]
    cases isNegative x with
    | true => rfl
    | false => exact hbody.takeSign_eq
  rw [readFloat, htext, htake]
  dsimp only
  rw [hread, Option.map_some]
  exact congrArg some hsigned

theorem nearestFloat_zero (h : d ≤ 2 ^ 64) : nearestFloat d 0 = Float.ofNat d := by
  unfold nearestFloat
  by_cases hd : d = 0
  · rw [if_pos (beq_iff_eq.mpr hd), hd]
    rfl
  · have hshort : (natDigits d).length ≤ 20 :=
      (Nat.length_toDigits_le_iff (by decide) (by decide)).mpr (by omega)
    rw [if_neg (mt beq_iff_eq.mp hd), if_neg (by omega), if_neg (by omega)]
    rfl

theorem readInt_eq_some {n : Int} :
    readInt cs = some n ↔ ∃ m : Nat, readNat (takeSign cs).2 = some m ∧
      (if (takeSign cs).1 then -(m : Int) else m) = n := by
  unfold readInt
  obtain ⟨negative, rest⟩ := takeSign cs
  cases hrest : readNat rest <;> simp [hrest]

theorem readNat_eq_some {n : Nat} (h : readNat digits = some n) :
    digits ≠ [] ∧ (∀ c ∈ digits, isDigit c = true) ∧ Nat.ofDigitChars 10 digits 0 = n := by
  unfold readNat at h
  split at h
  · rename_i hdigits
    simp only [Bool.and_eq_true, Bool.not_eq_true', List.isEmpty_eq_false_iff,
      List.all_eq_true] at hdigits
    exact ⟨hdigits.1, hdigits.2, Option.some.inj h⟩
  · cases h

-- An integer with up to 64 bits is read as a double as its nearest one, zero with any sign.
theorem exists_readFloat_of_readInt {n : Int} (h : readInt cs = some n) (hn : n.natAbs ≤ 2 ^ 64) :
    ∃ y, readFloat cs = some y ∧ y.isFinite = true ∧ Double.toRat y = Double.rounded n := by
  obtain ⟨m, hm, hsign⟩ := readInt_eq_some.mp h
  have hmagnitude : m ≤ 2 ^ 64 := by
    split at hsign <;> omega
  obtain ⟨hne, hdigits, hvalue⟩ := readNat_eq_some hm
  have hread : readFloat cs =
      some (if (takeSign cs).1 then -Float.ofNat m else Float.ofNat m) := by
    unfold readFloat
    dsimp only
    rw [(Written.whole hne hdigits).readUnsigned_eq, hvalue, nearestFloat_zero hmagnitude]
    rfl
  have hnumber : Double.IsNumber (Float.ofNat m).toModel.unpack :=
    (Double.nearest_ofInt (i := m) hmagnitude).1
  refine ⟨_, hread, ?_⟩
  cases hnegative : (takeSign cs).1 with
  | false =>
      rw [hnegative, if_neg Bool.false_ne_true] at hsign
      rw [if_neg Bool.false_ne_true, ← hsign]
      exact ⟨hnumber.isFinite, rfl⟩
  | true =>
      rw [hnegative, if_pos rfl] at hsign
      have hunpack := Double.unpack_neg hnumber
      have hfinite : (-Float.ofNat m).toModel.unpack.isFinite = true := by
        rw [hunpack]
        exact hnumber.neg.isFinite
      refine ⟨hfinite, ?_⟩
      rw [if_pos rfl, ← hsign]
      cases m with
      | zero => rfl
      | succ m => rfl

end Sieve.Decimal

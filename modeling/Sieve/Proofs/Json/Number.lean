import Sieve.Json.Reader
import Sieve.Json.Printer
import Sieve.Proofs.Calendar.Text
import Sieve.Proofs.Decimal.Bound

-- The numbers of JSON texts: an integer that is read has at most 64 bits, a double that is read is
-- finite, and what is printed for a number is read as that number wherever it stands.
namespace Sieve.Json

open Calendar (EndsDigits)
open Decimal (isDigit takeDigits takeSign)
open Double (Below below_ofNat)

variable {cs rest digits : List Char} {c : Char}

namespace Number

-- An integer fits 64 bits, with a sign or without, and a double is finite.
def Sound : Number → Prop
  | integer n => -9223372036854775808 ≤ n ∧ n < 18446744073709551616
  | double x => x.isFinite = true

theorem Sound.isFinite_toFloat {n : Number} (h : n.Sound) : n.toFloat.isFinite = true := by
  cases n with
  | double x => exact h
  | integer n =>
      obtain ⟨hlow, hhigh⟩ := h
      cases n with
      | ofNat n =>
          have hword : n < 2 ^ 64 := Int.ofNat_lt.mp hhigh
          exact (below_ofNat hword).isFinite
      | negSucc n =>
          have hword : n + 1 < 2 ^ 64 := by omega
          exact Double.isFinite_neg (below_ofNat hword).isFinite

end Number

theorem takeFitting_lt {significand : Nat} (h : significand < wordBound) (cs : List Char) :
    (takeFitting significand cs).1 < wordBound := by
  induction cs generalizing significand with
  | nil => exact h
  | cons c cs ih =>
      simp only [takeFitting]
      split
      · rename_i hlonger
        exact ih hlonger
      · exact h

-- Divisions do not make a double larger, and a product is looked at before it is used.
theorem isFinite_scale {k : Int} (steps : Nat) {x y : Float} {exponent : Int} (hx : Below k x)
    (hlow : 0 ≤ k) (hhigh : k + steps ≤ 972) (h : scale steps x exponent = some y) :
    y.isFinite = true := by
  induction steps generalizing k x exponent with
  | zero =>
      obtain rfl := Option.some.inj h
      exact hx.isFinite
  | succ steps ih =>
      rw [scale] at h
      split at h
      · rename_i hsmall
        dsimp only at h
        split at h
        · obtain rfl := Option.some.inj h
          exact (hx.div_powerOfTen (by omega) hlow (by omega)).isFinite
        · split at h
          · rename_i hfinite
            obtain rfl := Option.some.inj h
            exact hfinite
          · cases h
      · split at h
        · obtain rfl := Option.some.inj h
          exact hx.isFinite
        · split at h
          · cases h
          · exact ih (hx.div_powerOfTen (by omega) hlow (by omega)) (by omega) (by omega) h

-- What is read for a numeral fits the bounds it was held against.
theorem sound_of_number? {numeral : Numeral} {n : Number} (h : numeral.number? = some n) :
    n.Sound := by
  unfold Numeral.number? at h
  dsimp only at h
  generalize Nat.ofDigitChars 10 numeral.whole 0 = whole at h
  split at h
  · rename_i hword
    have hlt : whole < 18446744073709551616 := of_decide_eq_true (Bool.and_eq_true_iff.mp hword).2
    obtain rfl := Option.some.inj h
    constructor <;> omega
  · split at h
    · rename_i hsigned
      have hle : whole ≤ 9223372036854775808 := of_decide_eq_true (Bool.and_eq_true_iff.mp hsigned).2
      obtain rfl := Option.some.inj h
      constructor <;> omega
    · obtain ⟨x, hx, rfl⟩ := Option.map_eq_some_iff.mp h
      have hleading : (takeFitting 0 numeral.whole).1 < wordBound := takeFitting_lt (by decide) _
      have hsignificand := takeFitting_lt hleading numeral.fraction
      have hfinite : x.isFinite = true :=
        isFinite_scale 4 (below_ofNat hsignificand) (by decide) (by decide) hx
      cases numeral.negative with
      | false => exact hfinite
      | true => exact Double.isFinite_neg hfinite

-- Numerals

-- Where a numeral ends: at the end of the text, or before what no numeral goes on with.
def EndsNumeral (rest : List Char) : Prop :=
  ∀ c others, rest = c :: others → isDigit c = false ∧ c ≠ '.' ∧ c ≠ 'e' ∧ c ≠ 'E'

theorem EndsNumeral.endsDigits (h : EndsNumeral rest) : EndsDigits rest :=
  fun c others hrest => (h c others hrest).1

theorem takeDigits_append (h : EndsDigits rest) (cs : List Char) :
    takeDigits (cs ++ rest) = ((takeDigits cs).1, (takeDigits cs).2 ++ rest) := by
  induction cs with
  | nil =>
      cases rest with
      | nil => rfl
      | cons c rest => simp [takeDigits, h c rest rfl]
  | cons c cs ih =>
      obtain ⟨htake, hdrop⟩ := Prod.mk.inj ih
      by_cases hc : isDigit c = true
      · simp [takeDigits, hc, htake, hdrop]
      · simp [takeDigits, hc]

theorem takeFraction_append {fraction others : List Char} (hrest : EndsNumeral rest)
    (h : takeFraction cs = some (fraction, others)) :
    takeFraction (cs ++ rest) = some (fraction, others ++ rest) := by
  unfold takeFraction at h
  split at h
  · rename_i cs
    rw [List.cons_append, takeFraction, takeDigits_append hrest.endsDigits]
    dsimp only at h ⊢
    split at h
    · cases h
    · rename_i hdigits
      obtain ⟨rfl, rfl⟩ := Prod.mk.inj (Option.some.inj h)
      rw [if_neg hdigits]
  · rename_i hpoint
    obtain ⟨rfl, rfl⟩ := Prod.mk.inj (Option.some.inj h)
    rw [takeFraction]
    rintro others heq
    cases cs with
    | nil => exact (hrest '.' others heq).2.1 rfl
    | cons c cs =>
        obtain ⟨rfl, -⟩ := List.cons.inj heq
        exact hpoint cs rfl

theorem takeSign_append (hcs : cs ≠ []) (rest : List Char) :
    takeSign (cs ++ rest) = ((takeSign cs).1, (takeSign cs).2 ++ rest) := by
  cases cs with
  | nil => exact absurd rfl hcs
  | cons c cs =>
      by_cases hminus : c = '-'
      · rw [hminus]
        rfl
      by_cases hplus : c = '+'
      · rw [hplus]
        rfl
      have hdigits (others : List Char) : takeSign (c :: others) = (false, c :: others) := by
        unfold takeSign
        split <;> simp_all
      rw [List.cons_append, hdigits, hdigits]
      rfl

theorem takeExponent_append {exponent : Option Int} {others : List Char} (hrest : EndsNumeral rest)
    (h : takeExponent cs = some (exponent, others)) :
    takeExponent (cs ++ rest) = some (exponent, others ++ rest) := by
  cases cs with
  | nil =>
      obtain ⟨rfl, rfl⟩ := Prod.mk.inj (Option.some.inj h)
      cases rest with
      | nil => rfl
      | cons c rest =>
          obtain ⟨-, -, hsmall, hlarge⟩ := hrest c rest rfl
          simp [takeExponent, hsmall, hlarge]
  | cons c cs =>
      rw [List.cons_append]
      rw [takeExponent] at h ⊢
      split at h
      · rename_i hc
        rw [if_pos hc]
        have hcs : cs ≠ [] := by
          rintro rfl
          cases h
        rw [takeSign_append hcs]
        dsimp only at h ⊢
        rw [takeDigits_append hrest.endsDigits]
        split at h
        · cases h
        · rename_i hdigits
          obtain ⟨rfl, rfl⟩ := Prod.mk.inj (Option.some.inj h)
          rw [if_neg hdigits]
      · rename_i hc
        obtain ⟨rfl, rfl⟩ := Prod.mk.inj (Option.some.inj h)
        rw [if_neg hc]
        rfl

-- What is read of a numeral behind its sign.
def takeUnsigned (negative : Bool) (cs : List Char) : Option (Numeral × List Char) :=
  let (whole, rest) := takeDigits cs
  if whole.isEmpty || (whole.head? == some '0' && 1 < whole.length) then none
  else
    (takeFraction rest).bind fun (fraction, rest) =>
      (takeExponent rest).map fun (exponent, rest) =>
        (⟨negative, whole, fraction, exponent.getD 0, fraction.isEmpty && exponent.isNone⟩, rest)

theorem takeNumeral_minus (cs : List Char) : takeNumeral ('-' :: cs) = takeUnsigned true cs := by
  simp only [takeNumeral, takeUnsigned]
  split
  · rfl
  · rcases takeFraction (takeDigits cs).2 with _ | ⟨fraction, rest⟩
    · rfl
    · rcases hexponent : takeExponent rest with _ | ⟨exponent, rest⟩ <;> simp [hexponent]

theorem takeNumeral_of_ne (h : ∀ others, cs ≠ '-' :: others) :
    takeNumeral cs = takeUnsigned false cs := by
  simp only [takeNumeral, takeUnsigned]
  split
  · rfl
  · rcases takeFraction (takeDigits cs).2 with _ | ⟨fraction, rest⟩
    · rfl
    · rcases hexponent : takeExponent rest with _ | ⟨exponent, rest⟩ <;> simp [hexponent]

theorem takeUnsigned_append {negative : Bool} {numeral : Numeral} {others : List Char}
    (hrest : EndsNumeral rest) (h : takeUnsigned negative cs = some (numeral, others)) :
    takeUnsigned negative (cs ++ rest) = some (numeral, others ++ rest) := by
  unfold takeUnsigned at h ⊢
  rw [takeDigits_append hrest.endsDigits]
  dsimp only at h ⊢
  split at h
  · cases h
  · rename_i hwhole
    obtain ⟨⟨fraction, behind⟩, hfraction, hnumeral⟩ := Option.bind_eq_some_iff.mp h
    obtain ⟨⟨exponent, last⟩, hexponent, hresult⟩ := Option.map_eq_some_iff.mp hnumeral
    obtain ⟨rfl, rfl⟩ := Prod.mk.inj hresult
    rw [if_neg hwhole, takeFraction_append hrest hfraction, Option.bind_some,
      takeExponent_append hrest hexponent]
    rfl

-- A numeral is read the same whatever comes behind it.
theorem takeNumeral_append {numeral : Numeral} {others : List Char} (hrest : EndsNumeral rest)
    (h : takeNumeral cs = some (numeral, others)) :
    takeNumeral (cs ++ rest) = some (numeral, others ++ rest) := by
  cases cs with
  | nil => cases h
  | cons c cs =>
      by_cases hminus : c = '-'
      · rw [hminus] at h ⊢
        rw [takeNumeral_minus] at h
        rw [List.cons_append, takeNumeral_minus]
        exact takeUnsigned_append hrest h
      · have hne (others : List Char) : c :: others ≠ '-' :: others := by
          rintro ⟨⟩
          exact hminus rfl
        rw [takeNumeral_of_ne (by simp [hminus])] at h ⊢
        exact takeUnsigned_append hrest h

theorem head_of_takeNumeral {numeral : Numeral} {others : List Char}
    (h : takeNumeral cs = some (numeral, others)) :
    ∃ c behind, cs = c :: behind ∧ (c = '-' ∨ isDigit c = true) := by
  cases cs with
  | nil => cases h
  | cons c cs =>
      refine ⟨c, cs, rfl, ?_⟩
      by_cases hminus : c = '-'
      · exact .inl hminus
      · right
        by_contra hdigit
        rw [takeNumeral_of_ne (by simp [hminus])] at h
        simp [takeUnsigned, takeDigits, hdigit] at h

-- Values that are numbers

theorem skipSpace_cons (hc : isSpace c = false) (cs : List Char) : skipSpace (c :: cs) = c :: cs := by
  simp [skipSpace, hc]

theorem skipSpace_append (hcs : skipSpace cs ≠ []) (rest : List Char) :
    skipSpace (cs ++ rest) = skipSpace cs ++ rest := by
  induction cs with
  | nil => exact absurd rfl hcs
  | cons c cs ih =>
      by_cases hc : isSpace c = true
      · simp only [skipSpace, List.cons_append, List.dropWhile_cons_of_pos hc] at hcs ⊢
        exact ih hcs
      · rw [List.cons_append, skipSpace_cons (Bool.eq_false_of_not_eq_true hc),
          skipSpace_cons (Bool.eq_false_of_not_eq_true hc)]
        rfl

theorem skipSpace_append_of_eq_nil (hcs : skipSpace cs = []) (rest : List Char) :
    skipSpace (cs ++ rest) = skipSpace rest :=
  List.dropWhile_append_of_pos (List.dropWhile_eq_nil_iff.mp hcs)

theorem takeValue_of_numeral {fuel : Nat} {numeral : Numeral} {others : List Char}
    (h : takeNumeral (skipSpace cs) = some (numeral, others)) :
    takeValue (fuel + 1) cs = some (.number numeral.number?, others) := by
  obtain ⟨c, behind, hcs, hc⟩ := head_of_takeNumeral h
  unfold takeValue
  split <;> rename_i hother
  case h_7 =>
    rw [h]
    rfl
  -- What starts none of the other values.
  all_goals
    rw [hother] at hcs
    obtain ⟨rfl, -⟩ := List.cons.inj hcs
    rcases hc with hc | hc <;> cases hc

theorem numeral_of_takeValue {fuel : Nat} {n : Option Number} {others : List Char}
    (h : takeValue (fuel + 1) cs = some (.number n, others)) :
    ∃ numeral, takeNumeral (skipSpace cs) = some (numeral, others) ∧ numeral.number? = n := by
  unfold takeValue at h
  split at h
  · cases h
  · cases h
  · cases h
  · obtain ⟨_, _, hresult⟩ := Option.map_eq_some_iff.mp h
    cases hresult
  · split at h
    · cases h
    · obtain ⟨_, _, hresult⟩ := Option.map_eq_some_iff.mp h
      cases hresult
  · split at h
    · cases h
    · obtain ⟨_, _, hresult⟩ := Option.map_eq_some_iff.mp h
      cases hresult
  · obtain ⟨⟨numeral, behind⟩, hnumeral, hresult⟩ := Option.map_eq_some_iff.mp h
    obtain ⟨hn, rfl⟩ := Prod.mk.inj hresult
    exact ⟨numeral, hnumeral, Source.number.inj hn⟩

namespace Number

-- Whether a number is read as it was printed.
def Reads (n : Number) : Prop :=
  ∃ numeral others, takeNumeral (skipSpace n.render.toList) = some (numeral, others) ∧
    numeral.number? = some n ∧ skipSpace others = []

theorem Reads.takeValue {n : Number} (h : n.Reads) (hrest : EndsNumeral rest) (fuel : Nat) :
    ∃ others, takeValue (fuel + 1) (n.render.toList ++ rest) = some (.number (some n), others) ∧
      skipSpace others = skipSpace rest := by
  obtain ⟨numeral, others, hnumeral, hn, hothers⟩ := h
  refine ⟨others ++ rest, ?_, skipSpace_append_of_eq_nil hothers rest⟩
  have hne : skipSpace n.render.toList ≠ [] := by
    obtain ⟨c, behind, hcs, -⟩ := head_of_takeNumeral hnumeral
    rw [hcs]
    exact List.cons_ne_nil c behind
  rw [← hn]
  apply takeValue_of_numeral
  rw [skipSpace_append hne]
  exact takeNumeral_append hrest hnumeral

theorem takeUnsigned_natDigits (negative : Bool) (n : Nat) :
    takeUnsigned negative (Decimal.natDigits n) =
      some (⟨negative, Decimal.natDigits n, [], 0, true⟩, []) := by
  have hall : ∀ c ∈ Decimal.natDigits n, isDigit c = true := fun c => Decimal.isDigit_of_mem_natDigits
  have hdigits : takeDigits (Decimal.natDigits n) = (Decimal.natDigits n, []) := by
    rw [takeDigits, List.takeWhile_eq_self_iff.mpr hall, List.dropWhile_eq_nil_iff.mpr hall]
  have hne : Decimal.natDigits n ≠ [] := Nat.toDigits_ne_nil
  have hzero : (Decimal.natDigits n).head? = some '0' → (Decimal.natDigits n).length = 1 := by
    intro hhead
    cases n with
    | zero => rfl
    | succ n => exact absurd hhead (Decimal.head?_natDigits_ne n.succ_pos)
  have hwhole : ¬ ((Decimal.natDigits n).isEmpty || ((Decimal.natDigits n).head? == some '0' &&
      decide (1 < (Decimal.natDigits n).length))) = true := by
    simp only [List.isEmpty_iff, Bool.or_eq_true, Bool.and_eq_true, beq_iff_eq, decide_eq_true_eq]
    rintro (hnil | ⟨hhead, hlong⟩)
    · exact hne hnil
    · have hlength := hzero hhead
      omega
  rw [takeUnsigned, hdigits]
  dsimp only
  rw [if_neg hwhole]
  rfl

theorem natDigits_eq_cons (n : Nat) :
    ∃ c others, Decimal.natDigits n = c :: others ∧ isDigit c = true := by
  cases hdigits : Decimal.natDigits n with
  | nil => exact absurd hdigits Nat.toDigits_ne_nil
  | cons c others =>
      exact ⟨c, others, rfl, Decimal.isDigit_of_mem_natDigits (hdigits ▸ List.mem_cons_self)⟩

-- Integers within their bounds are read as they are.
theorem reads_integer {n : Int} (h : (integer n).Sound) : (integer n).Reads := by
  obtain ⟨hlow, hhigh⟩ := h
  have hrender : (integer n).render.toList = Decimal.intDigits n := String.toList_ofList
  cases n with
  | ofNat n =>
      obtain ⟨c, others, hdigits, hc⟩ := natDigits_eq_cons n
      have hspace : isSpace c = false := by
        by_contra hspace
        simp only [isSpace, Bool.not_eq_false, Bool.or_eq_true, decide_eq_true_eq] at hspace
        rcases hspace with ((rfl | rfl) | rfl) | rfl <;> cases hc
      have hminus (behind : List Char) : Decimal.natDigits n ≠ '-' :: behind := by
        rw [hdigits]
        rintro ⟨⟩
        cases hc
      have hchars : Decimal.intDigits (Int.ofNat n) = Decimal.natDigits n := rfl
      have hword : n < wordBound := Int.ofNat_lt.mp hhigh
      refine ⟨⟨false, Decimal.natDigits n, [], 0, true⟩, [], ?_, ?_, rfl⟩
      · rw [hrender, hchars, hdigits, skipSpace_cons hspace, ← hdigits, takeNumeral_of_ne hminus,
          takeUnsigned_natDigits]
      · simp [Numeral.number?, Decimal.natDigits, Nat.ofDigitChars_ten_toDigits, hword]
  | negSucc n =>
      have hchars : Decimal.intDigits (Int.negSucc n) = '-' :: Decimal.natDigits (n + 1) := by
        rw [Decimal.intDigits, if_pos (Int.negSucc_lt_zero n)]
        rfl
      have hsigned : n + 1 ≤ signedBound := by
        change n + 1 ≤ 9223372036854775808
        omega
      refine ⟨⟨true, Decimal.natDigits (n + 1), [], 0, true⟩, [], ?_, ?_, rfl⟩
      · rw [hrender, hchars, skipSpace_cons rfl, takeNumeral_minus, takeUnsigned_natDigits]
      · simp [Numeral.number?, Decimal.natDigits, Nat.ofDigitChars_ten_toDigits, hsigned,
          Int.negSucc_eq, Int.add_comm]

end Number

def number? : Json → Option Number
  | .number n => some n
  | _ => none

-- Whether a double is read as it was printed.
def ReadsBack (x : Float) : Prop :=
  read (renderDouble x) = some (.number (.double x))

instance (x : Float) : Decidable (ReadsBack x) :=
  decidable_of_iff ((read (renderDouble x)).bind number? = some (.double x)) (by
    rw [ReadsBack, Option.bind_eq_some_iff]
    constructor
    · rintro ⟨json, hread, hnumber⟩
      cases json <;> cases hnumber
      exact hread
    · intro hread
      exact ⟨_, hread, rfl⟩)

-- A double is printed as a number if it is read back at all.
theorem ReadsBack.reads {x : Float} (h : ReadsBack x) : (Number.double x).Reads := by
  obtain ⟨source, hread, hvalue⟩ := Option.bind_eq_some_iff.mp h
  have hsource : source = .number (some (.double x)) := by
    cases source with
    | number n =>
        obtain ⟨m, rfl, hm⟩ := Option.map_eq_some_iff.mp hvalue
        rw [Json.number.inj hm]
    | string s =>
        obtain ⟨_, _, hs⟩ := Option.map_eq_some_iff.mp hvalue
        cases hs
    | array items =>
        obtain ⟨_, _, hitems⟩ := Option.map_eq_some_iff.mp hvalue
        cases hitems
    | object members =>
        obtain ⟨_, _, hmembers⟩ := Option.map_eq_some_iff.mp hvalue
        cases hmembers
    | null => cases hvalue
    | bool b => cases hvalue
  unfold Source.read at hread
  dsimp only at hread
  split at hread
  · rename_i others htake
    split at hread
    · rename_i hothers
      obtain rfl := Option.some.inj hread
      rw [hsource] at htake
      obtain ⟨numeral, hnumeral, hn⟩ := numeral_of_takeValue htake
      exact ⟨numeral, others, hnumeral, hn, List.isEmpty_iff.mp hothers⟩
    · cases hread
  · cases hread

end Sieve.Json

import Sieve.Literal.Tokens
import Sieve.Proofs.Coercer.Comma
import Sieve.Proofs.Locale.Number

-- A scalar of a rule against the same scalar in a record. The one is written in the way of the locale
-- and read from that; the other is taken as it is, or read from its plain text.
namespace Sieve

variable {c : Coercer} {kind : Kind} {raw : RawValue} {value literal : Value} {token : String}
  {stored : Datum} {x : Float}

-- A literal as it stands in a rule, and what a record holds for the same JSON value.
inductive Native : RawValue → Value → Prop where
  | bool (b : Bool) : Native (.bool b) (.boolean b)
  | int (n : Int64) : Native (.int n) (.long n)
  | float (x : Float) : Native (.float x) (.double x)
  | text (s : String) : Native (.text s) (.string s)

namespace Decimal

theorem readInt_intDigits (n : Int) : readInt (intDigits n) = some n := by
  rw [readInt_eq_some]
  by_cases hn : n < 0
  · rw [intDigits, if_pos hn]
    refine ⟨n.natAbs, readNat_natDigits _, ?_⟩
    change -(n.natAbs : Int) = n
    omega
  · have htake : takeSign (natDigits n.natAbs) = (false, natDigits n.natAbs) := by
      obtain ⟨c, rest, hdigits⟩ := List.exists_cons_of_ne_nil
        (show natDigits n.natAbs ≠ [] from Nat.toDigits_ne_nil)
      have hc : isDigit c = true := isDigit_of_mem_natDigits (by rw [hdigits]; exact .head _)
      rw [hdigits, takeSign_of_isDigit hc]
    rw [intDigits, if_neg hn, htake]
    refine ⟨n.natAbs, readNat_natDigits _, ?_⟩
    change (n.natAbs : Int) = n
    omega

theorem isPlain_of_mem_intDigits {n : Int} : ∀ c ∈ intDigits n, Locale.isPlain c = true := by
  have hdigits : ∀ c ∈ natDigits n.natAbs, Locale.isPlain c = true :=
    fun c hc => Locale.isPlain_of_isDigit (isDigit_of_mem_natDigits hc)
  rw [intDigits]
  split
  · exact List.forall_mem_cons.mpr ⟨rfl, hdigits⟩
  · exact hdigits

end Decimal

namespace Coercer

theorem integerWithin_eq_some {locale : Locale} {low high n : Int} {cs plain : List Char}
    (hplain : locale.normalizeNumber cs = some plain) (h : integerWithin locale low high cs = some n) :
    Decimal.readInt plain = some n ∧ low ≤ n ∧ n ≤ high := by
  unfold integerWithin at h
  rw [hplain] at h
  obtain ⟨_, ⟨⟩, h⟩ := Option.bind_eq_some_iff.mp h
  obtain ⟨m, hm, h⟩ := Option.bind_eq_some_iff.mp h
  split at h
  · rename_i hwithin
    obtain rfl := Option.some.inj h
    exact ⟨hm, hwithin⟩
  · cases h

-- A number of a text is an integer as it reads in plain form, or the double that it reads as.
inductive ReadsAs (plain : List Char) : Value → Prop where
  | integer {n : Int32} (h : Decimal.readInt plain = some n.toInt) : ReadsAs plain (.integer n)
  | long {n : Int64} (h : Decimal.readInt plain = some n.toInt) : ReadsAs plain (.long n)
  | double {x : Float} (h : Decimal.readFloat plain = some x) : ReadsAs plain (.double x)

theorem readsAs_of_parse {plain : List Char} (hnumeric : kind.isNumeric = true)
    (hplain : c.locale.normalizeNumber token.toList = some plain)
    (h : c.parse token kind = some literal) : ReadsAs plain literal := by
  cases kind with
  | integer =>
      obtain ⟨n, hn, rfl⟩ := Option.map_eq_some_iff.mp h
      obtain ⟨m, hm, rfl⟩ := Option.map_eq_some_iff.mp hn
      obtain ⟨hread, hlow, hhigh⟩ := integerWithin_eq_some hplain hm
      refine .integer ?_
      rw [hread, Int32.toInt_ofInt_of_le (by omega) (by omega)]
  | long =>
      obtain ⟨n, hn, rfl⟩ := Option.map_eq_some_iff.mp h
      obtain ⟨m, hm, rfl⟩ := Option.map_eq_some_iff.mp hn
      obtain ⟨hread, hlow, hhigh⟩ := integerWithin_eq_some hplain hm
      refine .long ?_
      rw [hread, Int64.toInt_ofInt_of_le (by omega) (by omega)]
  | double =>
      obtain ⟨x, hx, rfl⟩ := Option.map_eq_some_iff.mp h
      rw [parseDouble, hplain] at hx
      exact .double hx
  | _ => cases hnumeric

-- A stored scalar of another kind is read again from its text, and becomes the literal if that has
-- been read from the same; one that fits is held against the literal as it is.
theorem passes_equal_of_agree (hliteral : c.parse token kind = some literal)
    (hnan : literal.isNaN = false) (hstored : c.coerceDatum (.scalar value) kind = .ok stored)
    (htext : fits value kind = false → token = value.scalarText)
    (hequal : fits value kind = true → value.compare? literal = some .eq) :
    stored.passes .equal literal = true := by
  unfold coerceDatum at hstored
  dsimp only at hstored
  cases hfits : fits value kind with
  | true =>
      rw [if_pos hfits] at hstored
      obtain rfl := Except.ok.inj hstored
      rw [Datum.passes, Datum.compare?, hequal hfits]
      rfl
  | false =>
      rw [hfits, if_neg Bool.false_ne_true, ← htext hfits, hliteral] at hstored
      obtain rfl := Except.ok.inj hstored
      rw [Datum.passes, Datum.compare?, Value.compare?_self hnan]
      rfl

theorem compare?_long_of_readsAs {n : Int64}
    (h : ReadsAs (Decimal.intDigits n.toInt) literal) :
    (Value.long n).compare? literal = some .eq := by
  have hread := Decimal.readInt_intDigits n.toInt
  cases h with
  | integer h =>
      have hsame := Option.some.inj (hread.symm.trans h)
      exact congrArg some (compare_eq_iff_eq.mpr hsame)
  | long h =>
      have hsame := Option.some.inj (hread.symm.trans h)
      exact congrArg some (compare_eq_iff_eq.mpr hsame)
  | double h =>
      have hword : n.toInt.natAbs ≤ 2 ^ 64 := (Int64.natAbs_toInt_le n).trans (by decide)
      obtain ⟨y, hy, hfinite, hrounded⟩ := Decimal.exists_readFloat_of_readInt hread hword
      obtain rfl := Option.some.inj (hy.symm.trans h)
      exact Value.compare?_long_double_eq_iff.mpr ⟨hfinite, hrounded.symm⟩

theorem compare?_double_of_readsAs (h : ReadsAs (Decimal.renderFloat x).toList literal)
    (hnan : literal.isNaN = false) : (Value.double x).compare? literal = some .eq := by
  by_cases hx : x.isNaN = true
  · rw [Decimal.renderFloat_of_isNaN hx] at h
    cases h with
    | integer h | long h => cases h
    | double h =>
        obtain rfl : 0 / 0 = _ := Option.some.inj h
        cases hnan
  · have hread := Decimal.readFloat_renderFloat (Bool.not_eq_true _ ▸ hx)
    have hwhole {n : Int} (h : Decimal.readInt (Decimal.renderFloat x).toList = some n)
        (hn : n.natAbs ≤ 2 ^ 64) : Value.compareFloats x (Float.ofInt n) = some .eq := by
      obtain ⟨y, hy, hfinite, hrounded⟩ := Decimal.exists_readFloat_of_readInt h hn
      obtain rfl := Option.some.inj (hread.symm.trans hy)
      rw [Value.compareFloats_eq hfinite (Double.isFinite_ofInt hn)]
      exact congrArg some (compare_eq_iff_eq.mpr hrounded)
    cases h with
    | @integer n h =>
        have hlow := n.le_toInt
        have hhigh := n.toInt_lt
        exact hwhole h (by omega)
    | long h => exact hwhole h ((Int64.natAbs_toInt_le _).trans (by decide))
    | double h =>
        obtain rfl := Option.some.inj (hread.symm.trans h)
        exact Value.compare?_self hnan

-- The text of a double that is read as another kind, strings aside, has the same point everywhere.
theorem same_point_of_parse (hfits : fits (.double x) kind = false) (hstring : kind ≠ .string)
    (h : c.parse (c.locale.renderFloat x) kind = some literal) :
    c.locale.decimal = '.' ∨ '.' ∉ (Decimal.renderFloat x).toList := by
  by_contra hother
  rw [not_or, not_not] at hother
  have hcomma : c.locale.decimal ∈ _ := Locale.decimal_mem_renderFloat hother.2
  rw [Locale.decimal_eq_comma hother.1] at hcomma
  rw [parse_eq_none hcomma hfits hstring] at h
  cases h

end Coercer

-- A literal and what a record holds for the same JSON value are equal once both have been read as the
-- declared kind, unless they are texts of a double with a point that the locale writes differently.
theorem Native.passes_equal (h : Native raw value)
    (htoken : Literal.tokens c.locale false raw = [token])
    (hliteral : c.parse token kind = some literal) (hnan : literal.isNaN = false)
    (hpoint : kind = .string → ∀ x, raw = .float x →
      c.locale.decimal = '.' ∨ '.' ∉ (Decimal.renderFloat x).toList)
    (hstored : c.coerceDatum (.scalar value) kind = .ok stored) :
    stored.passes .equal literal = true := by
  cases h with
  | bool b =>
      obtain rfl : _ = token := List.singleton_inj.mp htoken
      refine Coercer.passes_equal_of_agree hliteral hnan hstored (fun _ => rfl) fun hfits => ?_
      obtain rfl : Kind.boolean = kind := beq_iff_eq.mp hfits
      have hread : c.parse (if b then "true" else "false") .boolean = some (.boolean b) := by
        cases b <;> rfl
      obtain rfl := Option.some.inj (hread.symm.trans hliteral)
      exact Value.compare?_self rfl
  | int n =>
      obtain rfl : _ = token := List.singleton_inj.mp htoken
      refine Coercer.passes_equal_of_agree hliteral hnan hstored (fun _ => rfl) fun hfits => ?_
      have hplain : c.locale.normalizeNumber (Decimal.renderInt n.toInt).toList =
          some (Decimal.intDigits n.toInt) := by
        rw [Decimal.renderInt, String.toList_ofList]
        exact Locale.normalizeNumber_of_isPlain Decimal.isPlain_of_mem_intDigits
      exact Coercer.compare?_long_of_readsAs (Coercer.readsAs_of_parse hfits hplain hliteral)
  | float x =>
      obtain rfl : _ = token := List.singleton_inj.mp htoken
      refine Coercer.passes_equal_of_agree hliteral hnan hstored
        (fun hfits => Locale.renderFloat_eq ?_) fun hfits => ?_
      · by_cases hstring : kind = .string
        · exact hpoint hstring x rfl
        · exact Coercer.same_point_of_parse hfits hstring hliteral
      · have hplain := Locale.normalizeNumber_renderFloat c.locale x
        have hreads := Coercer.readsAs_of_parse hfits hplain hliteral
        exact Coercer.compare?_double_of_readsAs hreads hnan
  | text s =>
      obtain rfl : _ = token := List.singleton_inj.mp htoken
      refine Coercer.passes_equal_of_agree hliteral hnan hstored (fun _ => rfl) fun hfits => ?_
      obtain rfl : Kind.string = kind := beq_iff_eq.mp hfits
      obtain rfl := Option.some.inj hliteral
      exact Value.compare?_self rfl

end Sieve

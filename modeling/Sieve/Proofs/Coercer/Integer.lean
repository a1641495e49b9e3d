import Sieve.Proofs.Coercer.Native
import Sieve.Proofs.Locale.Integer

-- Which texts are read as integers.
namespace Sieve

open Sieve.Locale (WritesInteger)

variable {locale : Locale} {low high n m : Int} {cs : List Char} {c : Coercer} {token : String}
  {value : Value}

theorem Locale.WritesInteger.unique (hn : WritesInteger locale cs n)
    (hm : WritesInteger locale cs m) : n = m :=
  Option.some.inj ((readInt_joinGroups.mpr hn).symm.trans (readInt_joinGroups.mpr hm))

namespace Coercer

theorem integerWithin_eq_some_iff :
    integerWithin locale low high cs = some n ↔
      WritesInteger locale (Text.trim cs) n ∧ low ≤ n ∧ n ≤ high := by
  have hwithin : integerWithin locale low high cs =
      ((locale.normalizeNumber cs).bind Decimal.readInt).bind fun m =>
        if low ≤ m ∧ m ≤ high then some m else none := by
    rw [Option.bind_assoc]
    rfl
  rw [hwithin, Option.bind_eq_some_iff, ← Locale.readInt_normalizeNumber]
  constructor
  · rintro ⟨m, hm, h⟩
    split at h
    · rename_i hm'
      obtain rfl := Option.some.inj h
      exact ⟨hm, hm'⟩
    · cases h
  · rintro ⟨hread, hn⟩
    exact ⟨n, hread, if_pos hn⟩

theorem parse_long_eq_some_iff :
    c.parse token .long = some value ↔
      ∃ n : Int64, WritesInteger c.locale (Text.trim token.toList) n.toInt ∧ value = .long n := by
  constructor
  · intro h
    obtain ⟨n, hn, rfl⟩ := Option.map_eq_some_iff.mp h
    obtain ⟨m, hm, rfl⟩ := Option.map_eq_some_iff.mp hn
    obtain ⟨hwritten, hlow, hhigh⟩ := integerWithin_eq_some_iff.mp hm
    refine ⟨.ofInt m, ?_, rfl⟩
    rwa [Int64.toInt_ofInt_of_le (by omega) (by omega)]
  · rintro ⟨n, hwritten, rfl⟩
    have hlow := n.le_toInt
    have hhigh := n.toInt_lt
    have hread := integerWithin_eq_some_iff.mpr
      ⟨hwritten, show -9223372036854775808 ≤ n.toInt by omega,
        show n.toInt ≤ 9223372036854775807 by omega⟩
    simp [parse, parseLong, hread]

theorem parse_integer_eq_some_iff :
    c.parse token .integer = some value ↔
      ∃ n : Int32, WritesInteger c.locale (Text.trim token.toList) n.toInt ∧
        value = .integer n := by
  constructor
  · intro h
    obtain ⟨n, hn, rfl⟩ := Option.map_eq_some_iff.mp h
    obtain ⟨m, hm, rfl⟩ := Option.map_eq_some_iff.mp hn
    obtain ⟨hwritten, hlow, hhigh⟩ := integerWithin_eq_some_iff.mp hm
    refine ⟨.ofInt m, ?_, rfl⟩
    rwa [Int32.toInt_ofInt_of_le (by omega) (by omega)]
  · rintro ⟨n, hwritten, rfl⟩
    have hlow := n.le_toInt
    have hhigh := n.toInt_lt
    have hread := integerWithin_eq_some_iff.mpr
      ⟨hwritten, show -2147483648 ≤ n.toInt by omega, show n.toInt ≤ 2147483647 by omega⟩
    simp [parse, parseInteger, hread]

theorem parse_long_eq_none
    (h : ∀ n : Int64, ¬WritesInteger c.locale (Text.trim token.toList) n.toInt) :
    c.parse token .long = none := by
  by_contra hsome
  obtain ⟨value, hvalue⟩ := Option.ne_none_iff_exists'.mp hsome
  obtain ⟨n, hwritten, -⟩ := parse_long_eq_some_iff.mp hvalue
  exact h n hwritten

theorem parse_integer_eq_none
    (h : ∀ n : Int32, ¬WritesInteger c.locale (Text.trim token.toList) n.toInt) :
    c.parse token .integer = none := by
  by_contra hsome
  obtain ⟨value, hvalue⟩ := Option.ne_none_iff_exists'.mp hsome
  obtain ⟨n, hwritten, -⟩ := parse_integer_eq_some_iff.mp hvalue
  exact h n hwritten

-- A text is read as an integer of 64 bits, or of 32, if it writes one that fits, blanks around it
-- aside, and then as just that. Hence a decimal separator, a separator in any other place and a
-- number out of range make it none.
theorem parse_integral_iff (c : Coercer) (token : String) :
    (∀ value, c.parse token .long = some value ↔
      ∃ n : Int64, WritesInteger c.locale (Text.trim token.toList) n.toInt ∧ value = .long n) ∧
    (∀ value, c.parse token .integer = some value ↔
      ∃ n : Int32, WritesInteger c.locale (Text.trim token.toList) n.toInt ∧ value = .integer n) ∧
    (c.locale.decimal ∈ token.toList →
      c.parse token .long = none ∧ c.parse token .integer = none) ∧
    (∀ n, WritesInteger c.locale (Text.trim token.toList) n →
      (n < -2 ^ 63 ∨ 2 ^ 63 ≤ n → c.parse token .long = none) ∧
      (n < -2 ^ 31 ∨ 2 ^ 31 ≤ n → c.parse token .integer = none)) := by
  refine ⟨fun value => parse_long_eq_some_iff, fun value => parse_integer_eq_some_iff, ?_, ?_⟩
  · intro hdecimal
    have htrim := Text.mem_trim (Locale.isBlank_decimal c.locale) hdecimal
    constructor
    · exact parse_long_eq_none fun n hwritten => hwritten.decimal_notMem htrim
    · exact parse_integer_eq_none fun n hwritten => hwritten.decimal_notMem htrim
  · intro n hwritten
    constructor
    · intro hout
      apply parse_long_eq_none
      intro m hm
      obtain rfl := hwritten.unique hm
      have hlow := m.le_toInt
      have hhigh := m.toInt_lt
      omega
    · intro hout
      apply parse_integer_eq_none
      intro m hm
      obtain rfl := hwritten.unique hm
      have hlow := m.le_toInt
      have hhigh := m.toInt_lt
      omega

theorem german_millions_read :
    (⟨.deDE, false⟩ : Coercer).parse " -1.234.567 " .long = some (.long (-1234567)) := by
  have hgroups : Locale.Groups .deDE ".234.567".toList "234567".toList :=
    .cons (.inl rfl) rfl rfl rfl (.cons (.inl rfl) rfl rfl rfl .nil)
  have hlead : ∀ c ∈ ['1'], Decimal.isDigit c = true := List.forall_mem_singleton.mpr rfl
  have hmagnitude : Locale.Magnitude .deDE "1.234.567".toList "1234567".toList :=
    .grouped hlead (by decide) hgroups (List.cons_ne_nil _ _)
  have hwritten : WritesInteger .deDE (Text.trim " -1.234.567 ".toList) (-1234567) :=
    .intro .minus hmagnitude
  exact ((parse_integral_iff _ _).1 _).mpr ⟨-1234567, hwritten, rfl⟩

end Coercer

end Sieve

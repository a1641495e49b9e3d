import Sieve.Proofs.Coercer.Dates

-- The texts of stored dates and timestamps are read back as what they are the texts of.
namespace Sieve

open Calendar
open Decimal (isDigit paddedDigits)

namespace Calendar

theorem takeDigits_paddedDigits {width n : Nat} (hwidth : 0 < width) (hn : n < 10 ^ width)
    (rest : List Char) : takeDigits width (paddedDigits width n ++ rest) = some (n, rest) := by
  have hlength := Decimal.length_paddedDigits hwidth hn
  have hall : (paddedDigits width n).all isDigit = true :=
    List.all_eq_true.mpr fun _ => Decimal.isDigit_of_mem_paddedDigits
  simp only [takeDigits, List.take_left' hlength, List.drop_left' hlength, hlength, hall, and_self,
    if_true, Decimal.ofDigitChars_paddedDigits]

theorem takeDigits_of_not_isDigit {width : Nat} {c : Char} (hc : isDigit c = false)
    (hwidth : 0 < width) (cs : List Char) : takeDigits width (c :: cs) = none := by
  obtain ⟨n, rfl⟩ := Nat.exists_eq_succ_of_ne_zero (Nat.ne_of_gt hwidth)
  simp [takeDigits, hc]

-- A year has a sign in front, or just four digits.
theorem yearDigits_cases (year : Int) :
    (∃ c cs, Date.yearDigits year = c :: cs ∧ isDigit c = false) ∨
      Date.yearDigits year = paddedDigits 4 year.natAbs ∧ year.natAbs < 10 ^ 4 := by
  simp only [Date.yearDigits]
  by_cases hnegative : year < 0
  · exact .inl ⟨'-', paddedDigits 4 year.natAbs, by simp [hnegative], rfl⟩
  by_cases hlong : 9999 < year
  · exact .inl ⟨'+', paddedDigits 4 year.natAbs, by simp [hnegative, hlong], rfl⟩
  · refine .inr ⟨by simp [hnegative, hlong], by omega⟩

end Calendar

namespace DateTime

theorem takeFraction_fractionDigits {nano : Nat} (h : nano < 1000000000) :
    takeFraction (fractionDigits nano) = some (nano, []) := by
  have hends : EndsDigits [] := by
    rintro _ _ ⟨⟩
  have hfraction {width n : Nat} (hwidth : 0 < width) (hnine : width ≤ 9) (hn : n < 10 ^ width)
      (hnano : n * 10 ^ (9 - width) = nano) :
      takeFraction ('.' :: paddedDigits width n) = some (nano, []) := by
    have htake := takeFraction_paddedDigits hwidth hnine hn hends
    rwa [List.append_nil, hnano] at htake
  unfold fractionDigits
  by_cases hzero : nano = 0
  · subst hzero
    rfl
  rw [if_neg hzero]
  by_cases hmillis : nano % 1000000 = 0
  · rw [if_pos hmillis]
    exact hfraction (by decide) (by decide) (by omega) (by omega)
  rw [if_neg hmillis]
  by_cases hmicros : nano % 1000 = 0
  · rw [if_pos hmicros]
    exact hfraction (by decide) (by decide) (by omega) (by omega)
  · rw [if_neg hmicros]
    exact hfraction (by decide) (by decide) (by omega) (by omega)

end DateTime

namespace Calendar

section Offset

variable {β : Type} {rest : List Char}

theorem bind_takeDigits_paddedDigits {width n : Nat} {f : Nat × List Char → Option β}
    (hwidth : 0 < width) (hn : n < 10 ^ width) :
    (takeDigits width (paddedDigits width n ++ rest)).bind f = f (n, rest) := by
  rw [takeDigits_paddedDigits hwidth hn, Option.bind_some]

theorem bind_takeOneOf_cons {allowed : List Char} {c : Char} {f : List Char → Option β}
    (h : allowed.contains c = true) : (takeOneOf allowed (c :: rest)).bind f = f rest := by
  rw [takeOneOf, if_pos h, Option.bind_some]

theorem OffsetDateTime.read_of_sign {c : Char} (hc : isDigit c = false) :
    OffsetDateTime.read (c :: rest) = none := by
  rw [OffsetDateTime.read, takeDigits_of_not_isDigit hc (by decide)]
  rfl

end Offset

-- Neither the text of a date nor that of a timestamp has an offset at its end.
theorem OffsetDateTime.read_date (d : Date) : OffsetDateTime.read d.digits = none := by
  have hmonth := d.month_mem.2
  have hday := d.day_lt.1
  rcases yearDigits_cases d.year with ⟨c, cs, hyear, hc⟩ | ⟨hyear, hsmall⟩
  · rw [Date.digits, hyear]
    exact read_of_sign hc
  · apply read_of_short
    have htwo {n : Nat} (hn : n < 10 ^ 2) := Decimal.length_paddedDigits (by decide) hn
    simp only [Date.digits, hyear, List.length_append, List.length_singleton,
      Decimal.length_paddedDigits (by decide) hsmall, htwo hday,
      htwo (show d.month < 10 ^ 2 by omega)]
    decide

theorem OffsetDateTime.read_timestamp (t : DateTime) :
    OffsetDateTime.read (t.digits 'T') = none := by
  obtain ⟨hhour, hminute, -, -⟩ := t.valid
  have hsecond := t.clockSecond_le
  have hmonth := t.date.month_mem.2
  have hday := t.date.day_lt.1
  have hfraction := DateTime.takeFraction_fractionDigits (Nat.mod_lt t.nano (by decide))
  rcases yearDigits_cases t.date.year with ⟨c, cs, hyear, hc⟩ | ⟨hyear, hsmall⟩
  · rw [DateTime.digits, Date.digits, hyear]
    exact read_of_sign hc
  · simp only [DateTime.digits, Date.digits, DateTime.clockDigits, hyear, List.append_assoc,
      List.cons_append, List.nil_append]
    unfold read
    refine (bind_takeDigits_paddedDigits (by decide) hsmall).trans ?_
    refine (bind_takeOneOf_cons (by decide)).trans ?_
    refine (bind_takeDigits_paddedDigits (by decide) (by omega)).trans ?_
    refine (bind_takeOneOf_cons (by decide)).trans ?_
    refine (bind_takeDigits_paddedDigits (by decide) hday).trans ?_
    refine (bind_takeOneOf_cons (by decide)).trans ?_
    refine (bind_takeDigits_paddedDigits (by decide) (by omega)).trans ?_
    refine (bind_takeOneOf_cons (by decide)).trans ?_
    refine (bind_takeDigits_paddedDigits (by decide) (by omega)).trans ?_
    refine (bind_takeOneOf_cons (by decide)).trans ?_
    refine (bind_takeDigits_paddedDigits (by decide) (by omega)).trans ?_
    dsimp only
    rw [hfraction]
    rfl

end Calendar

-- There are no blanks in these texts, and so none around them.
section Blanks

theorem isBlank_of_mem_paddedDigits {width n : Nat} {c : Char} (h : c ∈ paddedDigits width n) :
    Text.isBlank c = false :=
  isBlank_of_isDigit (Decimal.isDigit_of_mem_paddedDigits h)

theorem isBlank_of_mem_marked {mark c : Char} (hmark : Text.isBlank mark = false) {width n : Nat}
    (h : c ∈ mark :: paddedDigits width n) : Text.isBlank c = false := by
  rcases List.mem_cons.mp h with rfl | h
  · exact hmark
  · exact isBlank_of_mem_paddedDigits h

theorem Date.isBlank_of_mem_digits (d : Date) : ∀ c ∈ d.digits, Text.isBlank c = false := by
  have hyear : ∀ c ∈ yearDigits d.year, Text.isBlank c = false := by
    intro c hc
    simp only [yearDigits] at hc
    split at hc
    · exact isBlank_of_mem_marked rfl hc
    split at hc
    · exact isBlank_of_mem_marked rfl hc
    · exact isBlank_of_mem_paddedDigits hc
  intro c hc
  simp only [digits, List.append_assoc, List.singleton_append, List.mem_append] at hc
  rcases hc with hc | hc | hc
  · exact hyear c hc
  · exact isBlank_of_mem_marked rfl hc
  · exact isBlank_of_mem_marked rfl hc

theorem DateTime.isBlank_of_mem_digits (t : DateTime) :
    ∀ c ∈ t.digits 'T', Text.isBlank c = false := by
  have hfraction : ∀ c ∈ fractionDigits (t.nano % 1000000000), Text.isBlank c = false := by
    intro c hc
    simp only [fractionDigits] at hc
    split at hc
    · cases hc
    split at hc
    · exact isBlank_of_mem_marked rfl hc
    split at hc
    · exact isBlank_of_mem_marked rfl hc
    · exact isBlank_of_mem_marked rfl hc
  intro c hc
  simp only [digits, clockDigits, List.append_assoc, List.mem_append, List.mem_singleton] at hc
  rcases hc with hc | rfl | hc | rfl | hc | rfl | hc | hc
  · exact t.date.isBlank_of_mem_digits c hc
  · rfl
  · exact isBlank_of_mem_paddedDigits hc
  · rfl
  · exact isBlank_of_mem_paddedDigits hc
  · rfl
  · exact isBlank_of_mem_paddedDigits hc
  · exact hfraction c hc

end Blanks

namespace Coercer

theorem parseDateTime_date (c : Coercer) (d : Date) :
    c.parseDateTime d.digits = some (.midnight d) := by
  have htakes := d.takes_digits {} []
  rw [List.append_nil] at htakes
  have hfit : firstFit isoPatterns {} d.digits = some (.midnight d) := by
    rw [isoPatterns_eq]
    refine (firstFit_of_takes htakes isoSuffixes).trans ?_
    exact DateTime.ShownAs.firstFit_isoSuffixes (t := .midnight d) (.midnight rfl)
  have hfirst : firstFit (isoPatterns ++ localPatterns c.locale.dateOrder) {} d.digits =
      some (.midnight d) := by
    rw [firstFit_append, hfit]
    rfl
  simp only [parseDateTime, Text.trim_eq_self (d.isBlank_of_mem_digits), OffsetDateTime.read_date]
  exact hfirst

theorem parseDateTime_timestamp (c : Coercer) (t : DateTime) :
    c.parseDateTime (t.digits 'T') = some t := by
  have hnano := DateTime.takeFraction_fractionDigits (Nat.mod_lt t.nano (by decide))
  have hread := (t.takes_timestamp {} hnano).read
  have hfirst : firstFit (isoPatterns ++ localPatterns c.locale.dateOrder) {} (t.digits 'T') =
      some t := by
    have htext : t.digits 'T' = t.date.digits ++ 'T' ::
        (t.clockDigits ++ DateTime.fractionDigits (t.nano % 1000000000)) := by
      simp [DateTime.digits]
    rw [htext]
    exact firstFit_cons_of_some hread t.dateTime?_fields
  simp only [parseDateTime, Text.trim_eq_self (t.isBlank_of_mem_digits),
    OffsetDateTime.read_timestamp]
  exact hfirst

-- Whatever the culture, the text of a stored date names this date, and as a timestamp its midnight;
-- the text of a stored timestamp names it, and as a date its day. So a stored date that is compared
-- as a timestamp is its midnight.

-- A leap second of a year with five digits.
example : (⟨.esES, true⟩ : Coercer).parse "+12016-12-31T23:59:60.000000001" .datetime =
    some (.datetime ⟨⟨12016, 12, 31, by decide⟩, 23, 59, 59, 1000000001, by decide⟩) := by
  decide +kernel

end Coercer

end Sieve

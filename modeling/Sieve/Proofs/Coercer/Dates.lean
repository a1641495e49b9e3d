import Mathlib.Data.List.Basic
import Sieve.Proofs.Calendar.Written
import Sieve.Proofs.Text.Blank

-- Dates that are written in the order of a locale are read as they are meant.
namespace Sieve

open Calendar
open Decimal (isDigit paddedDigits)

namespace Calendar

variable {β : Type} {cs rest : List Char} {k : Nat}

theorem bind_takeDigits_of_short {width : Nat} {f : Nat × List Char → Option β}
    (hshort : cs.length < k + width)
    (hf : ∀ n (rest : List Char), rest.length < k → f (n, rest) = none) :
    (takeDigits width cs).bind f = none := by
  rw [Option.bind_eq_none_iff]
  rintro ⟨n, rest⟩ htake
  unfold takeDigits at htake
  dsimp only at htake
  split at htake
  · rename_i hdigits
    cases htake
    have hlength := hdigits.1
    rw [List.length_take] at hlength
    refine hf _ _ ?_
    rw [List.length_drop]
    omega
  · cases htake

theorem bind_takeOneOf_of_short {allowed : List Char} {f : List Char → Option β}
    (hshort : cs.length < k + 1) (hf : ∀ rest : List Char, rest.length < k → f rest = none) :
    (takeOneOf allowed cs).bind f = none := by
  rw [Option.bind_eq_none_iff]
  intro rest htake
  unfold takeOneOf at htake
  split at htake
  · split at htake
    · cases htake
      exact hf _ (Nat.lt_of_succ_lt_succ hshort)
    · cases htake
  · cases htake

theorem length_le_of_takeFraction {n : Nat} (h : takeFraction cs = some (n, rest)) :
    rest.length ≤ cs.length := by
  unfold takeFraction at h
  split at h
  · dsimp only at h
    split at h
    · cases h
    · cases h
      exact Nat.le_succ_of_le (List.dropWhile_sublist _).length_le
  · cases h
    exact Nat.le_refl _

-- A timestamp with an offset has nineteen characters in front of the offset.
theorem OffsetDateTime.read_of_short (hshort : cs.length < 20) : OffsetDateTime.read cs = none := by
  unfold read
  refine bind_takeDigits_of_short hshort fun year cs hshort => ?_
  refine bind_takeOneOf_of_short hshort fun cs hshort => ?_
  refine bind_takeDigits_of_short hshort fun month cs hshort => ?_
  refine bind_takeOneOf_of_short hshort fun cs hshort => ?_
  refine bind_takeDigits_of_short hshort fun day cs hshort => ?_
  refine bind_takeOneOf_of_short hshort fun cs hshort => ?_
  refine bind_takeDigits_of_short hshort fun hour cs hshort => ?_
  refine bind_takeOneOf_of_short hshort fun cs hshort => ?_
  refine bind_takeDigits_of_short hshort fun minute cs hshort => ?_
  refine bind_takeOneOf_of_short hshort fun cs hshort => ?_
  refine bind_takeDigits_of_short hshort fun second cs hshort => ?_
  refine Option.bind_eq_none_iff.mpr fun ⟨nano, rest⟩ htake => ?_
  have hlength := length_le_of_takeFraction htake
  obtain rfl : rest = [] := List.length_eq_zero_iff.mp (by omega)
  rfl

end Calendar

namespace Coercer

variable {t : DateTime} {order : DateOrder} {separator : Char} {dayWidth monthWidth : Nat}
  {clock : List Char}

theorem isDigit_of_mem_separators (h : separator ∈ ['/', '-', '.']) :
    isDigit separator = false := by
  revert h
  simp only [List.mem_cons, List.not_mem_nil, or_false]
  rintro (rfl | rfl | rfl) <;> rfl

-- Of the patterns of the order only those with the separator that is written fit.
theorem firstFit_localPatterns_written (order : DateOrder) (hlow : 0 ≤ t.date.year)
    (hhigh : t.date.year ≤ 9999) (hseparator : separator ∈ ['/', '-', '.'])
    (hday : dayWidth ≤ 2) (hmonth : monthWidth ≤ 2) (hclock : t.ShownAs clock) :
    firstFit (localPatterns order) {}
      (t.date.digitsIn order separator dayWidth monthWidth ++ clock) = some t := by
  have hdigit := isDigit_of_mem_separators hseparator
  have hown : firstFit (localSuffixes.map (datePattern order separator ++ ·)) {}
      (t.date.digitsIn order separator dayWidth monthWidth ++ clock) = some t := by
    rw [firstFit_of_takes (Date.takes_digitsIn hlow hhigh hdigit hday hmonth hclock.endsDigits),
      hclock.firstFit_localSuffixes]
  have hother (other : Char) (hne : separator ≠ other) :
      firstFit (localSuffixes.map (datePattern order other ++ ·)) {}
        (t.date.digitsIn order separator dayWidth monthWidth ++ clock) = none :=
    Date.firstFit_of_other_separator hhigh hdigit hday hmonth (.inl rfl) hne _
  rw [localPatterns_eq]
  simp only [List.flatMap_cons, List.flatMap_nil, firstFit_append]
  simp only [List.mem_cons, List.not_mem_nil, or_false] at hseparator
  rcases hseparator with rfl | rfl | rfl
  · rw [hown]
    rfl
  · rw [hother '/' (by decide), hown]
    rfl
  · rw [hother '/' (by decide), hother '-' (by decide), hown]
    rfl

-- Those with the year first are tried before. They fit what is written with dashes and the year
-- first, with the same meaning, and nothing else.
theorem firstFit_written (hlow : 0 ≤ t.date.year) (hhigh : t.date.year ≤ 9999)
    (hseparator : separator ∈ ['/', '-', '.']) (hday : dayWidth ≤ 2) (hmonth : monthWidth ≤ 2)
    (hclock : t.ShownAs clock) :
    firstFit (isoPatterns ++ localPatterns order) {}
      (t.date.digitsIn order separator dayWidth monthWidth ++ clock) = some t := by
  have hdigit := isDigit_of_mem_separators hseparator
  have hlocal := firstFit_localPatterns_written order hlow hhigh hseparator hday hmonth hclock
  rw [firstFit_append]
  by_cases hdash : separator = '-'
  · subst hdash
    by_cases horder : order = .yearMonthDay
    · subst horder
      rw [isoPatterns_eq,
        firstFit_of_takes (Date.takes_digitsIn hlow hhigh hdigit hday hmonth hclock.endsDigits),
        hclock.firstFit_isoSuffixes]
      rfl
    · rw [Date.firstFit_isoPatterns_of_year_last hhigh hday hmonth horder hclock, hlocal]
      rfl
  · rw [isoPatterns_eq,
      Date.firstFit_of_other_separator hhigh hdigit hday hmonth (.inr rfl) hdash, hlocal]
    rfl

-- What is written begins and ends in digits, so that there are no blanks around it.
theorem head?_written (t : DateTime) (order : DateOrder) (separator : Char)
    (dayWidth monthWidth : Nat) (clock : List Char) :
    ∀ c ∈ (t.date.digitsIn order separator dayWidth monthWidth ++ clock).head?,
      Text.isBlank c = false := by
  have hfirst (width n : Nat) (rest : List Char) :
      ∀ c ∈ (paddedDigits width n ++ rest).head?, Text.isBlank c = false := by
    intro c hc
    rw [List.head?_append_of_ne_nil _ (Decimal.paddedDigits_ne_nil width n)] at hc
    exact isBlank_of_isDigit (Decimal.isDigit_of_mem_paddedDigits (List.mem_of_mem_head? hc))
  cases order <;> simp only [Date.digitsIn, List.append_assoc] <;> exact hfirst _ _ _

theorem exists_digits_suffix (hclock : t.ShownAs clock) (order : DateOrder) (separator : Char)
    (dayWidth monthWidth : Nat) :
    ∃ width n, paddedDigits width n <:+
      t.date.digitsIn order separator dayWidth monthWidth ++ clock := by
  have hafter (front : List Char) (c : Char) {cs digits : List Char} (h : digits <:+ cs) :
      digits <:+ front ++ c :: cs :=
    List.suffix_append_of_suffix (h.trans (List.suffix_cons c cs))
  cases hclock with
  | midnight h =>
      rw [List.append_nil]
      cases order <;> exact ⟨_, _, hafter _ _ (hafter _ _ List.suffix_rfl)⟩
  | minutes hsecond hnano => exact ⟨_, _, hafter _ _ (hafter _ _ List.suffix_rfl)⟩
  | seconds h => exact ⟨_, _, hafter _ _ (List.suffix_append _ _)⟩

theorem getLast?_written (hclock : t.ShownAs clock) (order : DateOrder) (separator : Char)
    (dayWidth monthWidth : Nat) :
    ∀ c ∈ (t.date.digitsIn order separator dayWidth monthWidth ++ clock).getLast?,
      Text.isBlank c = false := by
  obtain ⟨width, n, cs, htext⟩ := exists_digits_suffix hclock order separator dayWidth monthWidth
  intro c hc
  rw [← htext, List.getLast?_append_of_ne_nil _ (Decimal.paddedDigits_ne_nil width n)] at hc
  exact isBlank_of_isDigit (Decimal.isDigit_of_mem_paddedDigits (List.mem_of_mem_getLast? hc))

-- It is too short for a timestamp with an offset.
theorem length_clock (hclock : t.ShownAs clock) : clock.length ≤ 9 := by
  obtain ⟨hhour, hminute, -, -⟩ := t.valid
  have hsecond := t.clockSecond_le
  have htwo {n : Nat} (hn : n < 100) : (paddedDigits 2 n).length = 2 :=
    Decimal.length_paddedDigits (by decide) hn
  cases hclock with
  | midnight h => exact Nat.zero_le 9
  | minutes => simp [htwo (show t.hour < 100 by omega), htwo (show t.minute < 100 by omega)]
  | seconds h =>
      simp [DateTime.clockDigits, htwo (show t.hour < 100 by omega),
        htwo (show t.minute < 100 by omega), htwo (show t.clockSecond < 100 by omega)]

theorem length_digitsIn {d : Date} (hyear : d.year ≤ 9999) (hday : dayWidth ≤ 2)
    (hmonth : monthWidth ≤ 2) (order : DateOrder) (separator : Char) :
    (d.digitsIn order separator dayWidth monthWidth).length ≤ 10 := by
  have hends : EndsDigits [] := by
    rintro _ _ ⟨⟩
  have hdays := (d.isRun_day hday hends).length_le
  have hmonths := (d.isRun_month hmonth hends).length_le
  have hyears := (d.isRun_year hyear []).length_le
  cases order <;> simp only [Date.digitsIn, List.length_append, List.length_cons] <;> omega

-- Whatever the locale and the form of a date in its order, no form that is tried before fits it.
theorem parseDateTime_written (c : Coercer) (hlow : 0 ≤ t.date.year) (hhigh : t.date.year ≤ 9999)
    (hseparator : separator ∈ ['/', '-', '.']) (hday : dayWidth ≤ 2) (hmonth : monthWidth ≤ 2)
    (hclock : t.ShownAs clock) {before after : List Char}
    (hbefore : ∀ b ∈ before, Text.isBlank b = true) (hafter : ∀ b ∈ after, Text.isBlank b = true) :
    c.parseDateTime (before ++ (t.date.digitsIn c.locale.dateOrder separator dayWidth monthWidth ++
      clock) ++ after) = some t := by
  have htrim := Text.trim_around hbefore hafter
    (head?_written t c.locale.dateOrder separator dayWidth monthWidth clock)
    (getLast?_written hclock c.locale.dateOrder separator dayWidth monthWidth)
  have hdate := length_digitsIn hhigh hday hmonth c.locale.dateOrder separator
  have htime := length_clock hclock
  have hoffset : OffsetDateTime.read
      (t.date.digitsIn c.locale.dateOrder separator dayWidth monthWidth ++ clock) = none := by
    refine OffsetDateTime.read_of_short ?_
    rw [List.length_append]
    omega
  simp only [parseDateTime, htrim, hoffset]
  exact firstFit_written hlow hhigh hseparator hday hmonth hclock

-- A date with four digits of the year in the order of a locale, alone or with a time of day, means
-- this date at this time, and at midnight if it is alone.
theorem parse_written_date (c : Coercer) (t : DateTime) (hlow : 0 ≤ t.date.year)
    (hhigh : t.date.year ≤ 9999) {separator : Char} (hseparator : separator ∈ ['/', '-', '.'])
    {dayWidth monthWidth : Nat} (hday : dayWidth ≤ 2) (hmonth : monthWidth ≤ 2)
    {clock : List Char} (hclock : t.ShownAs clock) {before after : List Char}
    (hbefore : ∀ b ∈ before, Text.isBlank b = true) (hafter : ∀ b ∈ after, Text.isBlank b = true) :
    let text := String.ofList (before ++
      (t.date.digitsIn c.locale.dateOrder separator dayWidth monthWidth ++ clock) ++ after)
    c.parse text .date = some (.date t.date) ∧ c.parse text .datetime = some (.datetime t) := by
  have hread := parseDateTime_written c hlow hhigh hseparator hday hmonth hclock hbefore hafter
  simp only [parse, String.toList_ofList, hread, Option.map_some, and_self]

private def opening : DateTime :=
  ⟨⟨1908, 12, 3, by decide⟩, 8, 15, 0, 0, by decide⟩

-- The text begins like the 19th of a December in the year 3.
theorem opening_read :
    ∃ text, text.toList = ['\u00a0'] ++ "3-12-1908 08:15".toList ++ ['\n'] ∧
      (⟨.esES, true⟩ : Coercer).parse text .date = some (.date opening.date) ∧
      (⟨.esES, true⟩ : Coercer).parse text .datetime = some (.datetime opening) := by
  have hclock : opening.ShownAs " 08:15".toList := .minutes rfl rfl
  have hwritten : "3-12-1908 08:15".toList =
      opening.date.digitsIn .dayMonthYear '-' 1 2 ++ " 08:15".toList := by decide +kernel
  have hbefore : ∀ b ∈ ['\u00a0'], Text.isBlank b = true := List.forall_mem_singleton.mpr rfl
  have hafter : ∀ b ∈ ['\n'], Text.isBlank b = true := List.forall_mem_singleton.mpr rfl
  rw [hwritten]
  exact ⟨_, String.toList_ofList, parse_written_date ⟨.esES, true⟩ opening (by decide) (by decide)
    (by decide) (by decide) (by decide) hclock hbefore hafter⟩

end Coercer

end Sieve

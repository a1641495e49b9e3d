import Sieve.Calendar.Pattern
import Sieve.Proofs.Calendar.Order
import Sieve.Proofs.Decimal.Digits

namespace Sieve

open Decimal (isDigit paddedDigits)

namespace Calendar

-- A run of digits ends where a text does or goes on with something else.
def EndsDigits (cs : List Char) : Prop :=
  ∀ c rest, cs = c :: rest → isDigit c = false

theorem endsDigits_cons {c : Char} (h : isDigit c = false) (rest : List Char) :
    EndsDigits (c :: rest) := by
  rintro _ _ ⟨⟩
  exact h

theorem takeWhile_append_of_endsDigits {digits rest : List Char}
    (hdigits : ∀ c ∈ digits, isDigit c = true) (hrest : EndsDigits rest) :
    (digits ++ rest).takeWhile isDigit = digits := by
  rw [List.takeWhile_append_of_pos hdigits]
  cases rest with
  | nil => simp
  | cons c rest => simp [hrest c rest rfl]

theorem dropWhile_append_of_endsDigits {digits rest : List Char}
    (hdigits : ∀ c ∈ digits, isDigit c = true) (hrest : EndsDigits rest) :
    (digits ++ rest).dropWhile isDigit = rest := by
  rw [List.dropWhile_append_of_pos hdigits]
  cases rest with
  | nil => simp
  | cons c rest => simp [hrest c rest rfl]

theorem takeNumber_append {width : Nat} {digits rest : List Char}
    (hdigits : ∀ c ∈ digits, isDigit c = true) (hne : digits ≠ []) (hwidth : digits.length ≤ width)
    (hrest : digits.length = width ∨ EndsDigits rest) :
    takeNumber width (digits ++ rest) = some (Nat.ofDigitChars 10 digits 0, rest) := by
  have htake : ((digits ++ rest).take width).takeWhile isDigit = digits := by
    rw [List.take_append, List.take_of_length_le hwidth]
    apply takeWhile_append_of_endsDigits hdigits
    rcases hrest with hfull | hends
    · rw [hfull, Nat.sub_self]
      rintro _ _ ⟨⟩
    · intro c others htake
      cases rest with
      | nil => simp at htake
      | cons first rest =>
          cases hlength : width - digits.length with
          | zero => simp [hlength] at htake
          | succ n =>
              simp only [hlength, List.take_succ_cons, List.cons.injEq] at htake
              rw [← htake.1]
              exact hends first rest rfl
  simp [takeNumber, htake, hne]

-- A number that is padded to its width is read as it is, whatever comes behind it.
theorem takeNumber_paddedDigits {width n : Nat} (hwidth : 0 < width) (hn : n < 10 ^ width)
    (rest : List Char) : takeNumber width (paddedDigits width n ++ rest) = some (n, rest) := by
  have hlength := Decimal.length_paddedDigits hwidth hn
  rw [takeNumber_append (fun c => Decimal.isDigit_of_mem_paddedDigits)
    (Decimal.paddedDigits_ne_nil width n) (Nat.le_of_eq hlength) (.inl hlength),
    Decimal.ofDigitChars_paddedDigits]

theorem takeNumber_paddedDigits_of_endsDigits (width n : Nat) {rest : List Char}
    (hrest : EndsDigits rest) :
    takeNumber (paddedDigits width n ++ rest).length (paddedDigits width n ++ rest) =
      some (n, rest) := by
  rw [takeNumber_append (fun c => Decimal.isDigit_of_mem_paddedDigits)
    (Decimal.paddedDigits_ne_nil width n) (by simp) (.inr hrest),
    Decimal.ofDigitChars_paddedDigits]

theorem isBlank_of_isDigit {c : Char} (h : isDigit c = true) : Text.isBlank c = false := by
  simp only [isDigit, Bool.and_eq_true, decide_eq_true_eq, Char.le_def, UInt32.le_iff_toNat_le] at h
  obtain ⟨hlow, hhigh⟩ := h
  change 48 ≤ c.toNat at hlow
  change c.toNat ≤ 57 at hhigh
  simp only [Text.isBlank, Text.CharRanges.covers, Text.blankRanges, List.any_cons, List.any_nil,
    Bool.or_false, Bool.or_eq_false_iff, Bool.and_eq_false_iff, decide_eq_false_iff_not]
  omega

theorem trimStart_paddedDigits (width n : Nat) (rest : List Char) :
    Text.trimStart (paddedDigits width n ++ rest) = paddedDigits width n ++ rest := by
  cases hdigits : paddedDigits width n with
  | nil => exact absurd hdigits (Decimal.paddedDigits_ne_nil width n)
  | cons c digits =>
      have hc : isDigit c = true :=
        Decimal.isDigit_of_mem_paddedDigits (by rw [hdigits]; exact .head _)
      simp [Text.trimStart, isBlank_of_isDigit hc]

theorem takeYear_paddedDigits {n : Nat} (hn : n < 10 ^ 4) (rest : List Char) :
    takeYear (paddedDigits 4 n ++ rest) = some ((n : Int), rest) := by
  have hnumber := takeNumber_paddedDigits (by decide) hn rest
  cases hdigits : paddedDigits 4 n with
  | nil => exact absurd hdigits (Decimal.paddedDigits_ne_nil 4 n)
  | cons c digits =>
      have hc : isDigit c = true :=
        Decimal.isDigit_of_mem_paddedDigits (by rw [hdigits]; exact .head _)
      rw [hdigits] at hnumber
      rw [List.cons_append] at hnumber ⊢
      unfold takeYear
      split
      · rename_i heq
        obtain ⟨rfl, -⟩ := List.cons.inj heq
        cases hc
      · rename_i heq
        obtain ⟨rfl, -⟩ := List.cons.inj heq
        cases hc
      · rw [hnumber]
        rfl

theorem takeYear_minus (cs : List Char) :
    takeYear (Text.trimStart ('-' :: cs)) =
      (takeNumber cs.length cs).map fun (n, rest) => (-(n : Int), rest) := rfl

theorem takeYear_plus (cs : List Char) :
    takeYear (Text.trimStart ('+' :: cs)) =
      (takeNumber cs.length cs).map fun (n, rest) => ((n : Int), rest) := rfl

-- A year is read as it is written, with its sign or without.
theorem takeYear_yearDigits (year : Int) {rest : List Char} (hrest : EndsDigits rest) :
    takeYear (Text.trimStart (Date.yearDigits year ++ rest)) = some (year, rest) := by
  have hsigned := takeNumber_paddedDigits_of_endsDigits 4 year.natAbs hrest
  simp only [Date.yearDigits]
  split
  · have habs : -(year.natAbs : Int) = year := by omega
    rw [List.cons_append, takeYear_minus, hsigned]
    exact congrArg (fun n => some (n, rest)) habs
  · have habs : (year.natAbs : Int) = year := by omega
    split
    · rw [List.cons_append, takeYear_plus, hsigned]
      exact congrArg (fun n => some (n, rest)) habs
    · rw [trimStart_paddedDigits, takeYear_paddedDigits (by omega), habs]

-- A number of two digits is read in its range.
theorem takeWithin_paddedDigits {low high n : Nat} (hlow : low ≤ n) (hhigh : n ≤ high)
    (hn : n < 10 ^ 2) (rest : List Char) :
    takeWithin low high (paddedDigits 2 n ++ rest) = some (n, rest) := by
  rw [takeWithin, trimStart_paddedDigits, takeNumber_paddedDigits (by decide) hn]
  exact if_pos ⟨hlow, hhigh⟩

-- A fraction of a second in at most nine digits behind a point.
theorem takeFraction_paddedDigits {width n : Nat} (hwidth : 0 < width) (hnine : width ≤ 9)
    (hn : n < 10 ^ width) {rest : List Char} (hrest : EndsDigits rest) :
    takeFraction ('.' :: (paddedDigits width n ++ rest)) = some (n * 10 ^ (9 - width), rest) := by
  have hdigits : ∀ c ∈ paddedDigits width n, isDigit c = true :=
    fun c => Decimal.isDigit_of_mem_paddedDigits
  have hlength := Decimal.length_paddedDigits hwidth hn
  have hnanos : nanosOf (paddedDigits width n) = n * 10 ^ (9 - width) := by
    rw [nanosOf, List.take_of_length_le (by omega), Decimal.ofDigitChars_paddedDigits, hlength]
    rfl
  simp [takeFraction, takeWhile_append_of_endsDigits hdigits hrest,
    dropWhile_append_of_endsDigits hdigits hrest, Decimal.paddedDigits_ne_nil, hnanos]

-- A pattern takes what is read of a text, and leaves the rest for what follows it.
def Takes (p : Pattern) (f : Fields) (cs : List Char) (f' : Fields) (rest : List Char) : Prop :=
  ∀ q : Pattern, Pattern.read (p ++ q) f cs = Pattern.read q f' rest

namespace Takes

variable {p q : Pattern} {f f' f'' : Fields} {cs rest rest' : List Char}

theorem nil : Takes [] f cs f cs :=
  fun _ => rfl

theorem cons {item : PatternItem} (hitem : item.take f cs = some (f', rest))
    (h : Takes p f' rest f'' rest') : Takes (item :: p) f cs f'' rest' := by
  intro q
  rw [List.cons_append, Pattern.read, hitem]
  exact h q

theorem append (h : Takes p f cs f' rest) (h' : Takes q f' rest f'' rest') :
    Takes (p ++ q) f cs f'' rest' := by
  intro r
  rw [List.append_assoc, h, h']

theorem literal {c : Char} (h : Takes p f cs f' rest) :
    Takes (.literal c :: p) f (c :: cs) f' rest :=
  .cons (if_pos rfl) h

theorem read (h : Takes p f cs f' []) : p.read f cs = some f' := by
  have hread := h []
  rwa [List.append_nil] at hread

end Takes

end Calendar

namespace Date

theorem day_lt (d : Date) : d.day < 10 ^ 2 ∧ d.day ≤ 31 := by
  have hday := d.valid.2.2.2
  have hmonth : daysInMonth d.year d.month ≤ 31 := by
    unfold daysInMonth
    split
    · split <;> decide
    all_goals decide
  omega

open Calendar

-- A date is read as it is written.
theorem takes_digits (d : Date) (f : Fields) (rest : List Char) :
    Takes isoDate f (d.digits ++ rest)
      { f with year := d.year, month := d.month, day := d.day } rest := by
  obtain ⟨hlow, hhigh⟩ := d.month_mem
  obtain ⟨hday, hday'⟩ := d.day_lt
  have htext : d.digits ++ rest = yearDigits d.year ++
      '-' :: (paddedDigits 2 d.month ++ '-' :: (paddedDigits 2 d.day ++ rest)) := by
    simp [digits]
  have hyear (rest : List Char) (hrest : EndsDigits rest) :
      PatternItem.year.take f (yearDigits d.year ++ rest) =
        some ({ f with year := d.year }, rest) := by
    rw [PatternItem.take, takeYear_yearDigits d.year hrest]
    rfl
  have hmonth (f : Fields) (rest : List Char) :
      PatternItem.month.take f (paddedDigits 2 d.month ++ rest) =
        some ({ f with month := d.month }, rest) := by
    rw [PatternItem.take, takeWithin_paddedDigits hlow hhigh (by omega)]
    rfl
  have hday (f : Fields) (rest : List Char) :
      PatternItem.day.take f (paddedDigits 2 d.day ++ rest) =
        some ({ f with day := d.day }, rest) := by
    rw [PatternItem.take, takeWithin_paddedDigits d.valid.2.2.1 hday' hday]
    rfl
  rw [htext]
  exact .cons (hyear _ (endsDigits_cons rfl _))
    (.literal (.cons (hmonth _ _) (.literal (.cons (hday _ _) .nil))))

end Date

namespace DateTime

open Calendar

theorem clockSecond_le (t : DateTime) : t.clockSecond ≤ 60 := by
  obtain ⟨-, -, hsecond, hnano⟩ := t.valid
  rw [clockSecond]
  omega

theorem take_hour (t : DateTime) (f : Fields) (rest : List Char) :
    PatternItem.hour.take f (paddedDigits 2 t.hour ++ rest) =
      some ({ f with hour := t.hour }, rest) := by
  have hhour := t.valid.1
  rw [PatternItem.take, takeWithin_paddedDigits (by omega) (by omega) (by omega)]
  rfl

theorem take_minute (t : DateTime) (f : Fields) (rest : List Char) :
    PatternItem.minute.take f (paddedDigits 2 t.minute ++ rest) =
      some ({ f with minute := t.minute }, rest) := by
  have hminute := t.valid.2.1
  rw [PatternItem.take, takeWithin_paddedDigits (by omega) (by omega) (by omega)]
  rfl

theorem take_clockSecond (t : DateTime) (f : Fields) (rest : List Char) :
    PatternItem.second.take f (paddedDigits 2 t.clockSecond ++ rest) =
      some ({ f with second := t.clockSecond }, rest) := by
  have hsecond := t.clockSecond_le
  rw [PatternItem.take, takeWithin_paddedDigits (by omega) hsecond (by omega)]
  rfl

theorem clockDigits_append (t : DateTime) (rest : List Char) :
    t.clockDigits ++ rest = paddedDigits 2 t.hour ++
      ':' :: (paddedDigits 2 t.minute ++ ':' :: (paddedDigits 2 t.clockSecond ++ rest)) := by
  simp [clockDigits]

-- A time of day is read as a clock shows it.
theorem takes_clockDigits (t : DateTime) (f : Fields) (rest : List Char) :
    Takes hourMinuteSecond f (t.clockDigits ++ rest)
      { f with hour := t.hour, minute := t.minute, second := t.clockSecond } rest := by
  rw [clockDigits_append]
  exact .cons (t.take_hour _ _) (.literal (.cons (t.take_minute _ _)
    (.literal (.cons (t.take_clockSecond _ _) .nil))))

-- A timestamp is read as it is written, up to its fraction.
theorem takes_timestamp (t : DateTime) (f : Fields) {fraction rest : List Char} {nano : Nat}
    (hfraction : takeFraction fraction = some (nano, rest)) :
    Takes (isoDate ++ [.literal 'T'] ++ hourMinuteSecond ++ [.fraction]) f
      (t.date.digits ++ 'T' :: (t.clockDigits ++ fraction))
      { f with
        year := t.date.year, month := t.date.month, day := t.date.day, hour := t.hour,
        minute := t.minute, second := t.clockSecond, nano } rest := by
  refine .append (.append (.append (t.date.takes_digits f _) (.literal .nil))
    (t.takes_clockDigits _ _)) (.cons ?_ .nil)
  rw [PatternItem.take, hfraction]
  rfl

theorem of?_eq_some {date : Date} {hour minute second nano : Nat} {t : DateTime} :
    of? date hour minute second nano = some t ↔
      t.date = date ∧ t.hour = hour ∧ t.minute = minute ∧ t.second = second ∧ t.nano = nano := by
  unfold of?
  constructor
  · intro h
    split at h
    · cases h
      exact ⟨rfl, rfl, rfl, rfl, rfl⟩
    · cases h
  · rintro ⟨rfl, rfl, rfl, rfl, rfl⟩
    rw [dif_pos t.valid]

-- What a clock shows names the time, leap seconds included.
theorem ofClock?_clockSecond (t : DateTime) :
    ofClock? t.date t.hour t.minute t.clockSecond (t.nano % 1000000000) = some t := by
  obtain ⟨-, -, hsecond, hnano⟩ := t.valid
  rw [ofClock?, clockSecond]
  rcases hnano with hnano | ⟨hlast, hnano⟩
  · rw [if_neg (by omega), of?_eq_some]
    refine ⟨rfl, rfl, rfl, ?_, ?_⟩ <;> omega
  · by_cases hleap : t.nano < 1000000000
    · rw [if_neg (by omega), of?_eq_some]
      refine ⟨rfl, rfl, rfl, ?_, ?_⟩ <;> omega
    · rw [if_pos (by omega), of?_eq_some]
      refine ⟨rfl, rfl, rfl, ?_, ?_⟩ <;> omega

end DateTime

end Sieve

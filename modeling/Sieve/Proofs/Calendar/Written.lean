import Sieve.Coercer
import Sieve.Proofs.Calendar.Text

-- Dates in the order of a locale, alone or with a time of day, and the patterns that fit them.
namespace Sieve

open Calendar
open Decimal (isDigit paddedDigits)

-- A date in an order: four digits of the year, and of day and month as many as asked for at least.
def Date.digitsIn (order : DateOrder) (separator : Char) (dayWidth monthWidth : Nat) (d : Date) :
    List Char :=
  let day := paddedDigits dayWidth d.day
  let month := paddedDigits monthWidth d.month
  let year := paddedDigits 4 d.year.toNat
  match order with
  | .dayMonthYear => day ++ separator :: (month ++ separator :: year)
  | .monthDayYear => month ++ separator :: (day ++ separator :: year)
  | .yearMonthDay => year ++ separator :: (month ++ separator :: day)

-- What stands behind the date for a time of whole seconds: hours and minutes, with the seconds or
-- without, or nothing at all for midnight.
inductive DateTime.ShownAs (t : DateTime) : List Char → Prop where
  | midnight (h : t = .midnight t.date) : ShownAs t []
  | minutes (hsecond : t.second = 0) (hnano : t.nano = 0) :
      ShownAs t (' ' :: (paddedDigits 2 t.hour ++ ':' :: paddedDigits 2 t.minute))
  | seconds (h : t.nano % 1000000000 = 0) : ShownAs t (' ' :: t.clockDigits)

namespace Calendar

-- Digits that a number of at most so many digits takes in front of a text, all of them and no more.
structure IsRun (width : Nat) (digits rest : List Char) : Prop where
  all_digits : ∀ c ∈ digits, isDigit c = true
  ne_nil : digits ≠ []
  length_le : digits.length ≤ width
  ends : digits.length = width ∨ EndsDigits rest

namespace IsRun

variable {width : Nat} {digits rest : List Char}

theorem takeNumber_eq (h : IsRun width digits rest) :
    takeNumber width (digits ++ rest) = some (Nat.ofDigitChars 10 digits 0, rest) :=
  takeNumber_append h.all_digits h.ne_nil h.length_le h.ends

theorem trimStart_eq (h : IsRun width digits rest) :
    Text.trimStart (digits ++ rest) = digits ++ rest := by
  obtain ⟨c, cs, rfl⟩ := List.exists_cons_of_ne_nil h.ne_nil
  simp [Text.trimStart, isBlank_of_isDigit (h.all_digits c (.head _))]

theorem takeYear_eq (h : IsRun 4 digits rest) :
    takeYear (Text.trimStart (digits ++ rest)) =
      some (((Nat.ofDigitChars 10 digits 0 : Nat) : Int), rest) := by
  have hnumber := h.takeNumber_eq
  rw [h.trimStart_eq]
  obtain ⟨c, cs, rfl⟩ := List.exists_cons_of_ne_nil h.ne_nil
  have hc : isDigit c = true := h.all_digits c (.head _)
  rw [List.cons_append] at hnumber ⊢
  unfold takeYear
  split
  · rename_i heq
    obtain ⟨rfl, -⟩ := List.cons.inj heq
    cases hc
  · rename_i heq
    obtain ⟨rfl, -⟩ := List.cons.inj heq
    cases hc
  · rw [hnumber]
    rfl

theorem takeWithin_eq (h : IsRun 2 digits rest) (low high : Nat) :
    takeWithin low high (digits ++ rest) =
      if low ≤ Nat.ofDigitChars 10 digits 0 ∧ Nat.ofDigitChars 10 digits 0 ≤ high then
        some (Nat.ofDigitChars 10 digits 0, rest)
      else none := by
  rw [takeWithin, h.trimStart_eq, h.takeNumber_eq]

theorem of_length (hwidth : 0 < width) (hdigits : ∀ c ∈ digits, isDigit c = true)
    (hlength : digits.length = width) : IsRun width digits rest where
  all_digits := hdigits
  ne_nil := List.ne_nil_of_length_pos (hlength ▸ hwidth)
  length_le := Nat.le_of_eq hlength
  ends := .inl hlength

-- Where a number of two digits ends, one of four digits does.
theorem widen (h : IsRun 2 digits rest) (hrest : EndsDigits rest) : IsRun 4 digits rest :=
  ⟨h.all_digits, h.ne_nil, Nat.le_trans h.length_le (by decide), .inr hrest⟩

-- A number that has at most as many digits as are taken.
theorem of_paddedDigits {n : Nat} (hwidth : 0 < width) (hn : n < 10 ^ width) {shown : Nat}
    (hshown : shown ≤ width) (hrest : shown = width ∨ EndsDigits rest) :
    IsRun width (paddedDigits shown n) rest where
  all_digits := fun c => Decimal.isDigit_of_mem_paddedDigits
  ne_nil := Decimal.paddedDigits_ne_nil shown n
  length_le := by
    have hlength : (Decimal.natDigits n).length ≤ width :=
      (Nat.length_toDigits_le_iff (by decide) hwidth).mpr hn
    rw [paddedDigits, List.length_append, List.length_replicate]
    omega
  ends := by
    refine hrest.imp_left ?_
    rintro rfl
    exact Decimal.length_paddedDigits hwidth hn

end IsRun

-- The most digits that an item takes, if it takes a number.
def PatternItem.width? : PatternItem → Option Nat
  | .year => some 4
  | .month | .day | .hour | .minute | .second => some 2
  | _ => none

theorem rest_eq_of_take {item : PatternItem} {width : Nat} {digits rest rest' : List Char}
    {f f' : Fields} (hwidth : item.width? = some width) (hrun : IsRun width digits rest)
    (h : item.take f (digits ++ rest) = some (f', rest')) : rest' = rest := by
  cases item <;> cases hwidth
  case year =>
    rw [PatternItem.take, hrun.takeYear_eq] at h
    cases h
    rfl
  all_goals
    rw [PatternItem.take, hrun.takeWithin_eq] at h
    split at h <;> cases h
    rfl

-- A pattern that takes nothing of a text but what stands before a rest, if it fits at all.
def Leaves (p : Pattern) (cs rest : List Char) : Prop :=
  ∀ q : Pattern, (∀ f, q.read f rest = none) → ∀ f, Pattern.read (p ++ q) f cs = none

namespace Leaves

variable {p : Pattern} {cs rest : List Char}

theorem nil : Leaves [] cs cs :=
  fun _ h => h

theorem literal {c : Char} (h : Leaves p cs rest) : Leaves (.literal c :: p) (c :: cs) rest := by
  intro q hq f
  rw [List.cons_append, Pattern.read, PatternItem.take]
  simpa using h q hq f

theorem number {item : PatternItem} {width : Nat} {digits : List Char}
    (hwidth : item.width? = some width) (hrun : IsRun width digits cs) (h : Leaves p cs rest) :
    Leaves (item :: p) (digits ++ cs) rest := by
  intro q hq f
  rw [List.cons_append, Pattern.read]
  cases htake : item.take f (digits ++ cs) with
  | none => rfl
  | some taken =>
      obtain ⟨f', rest'⟩ := taken
      rw [rest_eq_of_take hwidth hrun htake]
      exact h q hq f'

theorem blanks (hstart : Text.trimStart cs = cs) (h : Leaves p cs rest) :
    Leaves (.blanks :: p) cs rest := by
  intro q hq f
  rw [List.cons_append, Pattern.read, PatternItem.take, hstart]
  exact h q hq f

end Leaves

theorem read_literal_of_ne {c first : Char} (h : first ≠ c) (p : Pattern) (f : Fields)
    (rest : List Char) : Pattern.read (.literal c :: p) f (first :: rest) = none := by
  rw [Pattern.read, PatternItem.take]
  simp [h]

-- A number with another separator behind it than a pattern asks for.
theorem read_of_other_separator {item : PatternItem} {width : Nat} {digits rest : List Char}
    {c separator : Char} (hwidth : item.width? = some width)
    (hrun : IsRun width digits (separator :: rest)) (hne : separator ≠ c) (p : Pattern)
    (f : Fields) :
    Pattern.read (item :: .literal c :: p) f (digits ++ separator :: rest) = none :=
  Leaves.number hwidth hrun .nil (.literal c :: p) (fun f => read_literal_of_ne hne p f rest) f

-- What the first pattern that fits says, the numbers before it read already.
def firstFit (patterns : List Pattern) (f : Fields) (cs : List Char) : Option DateTime :=
  patterns.findSome? fun p => (p.read f cs).bind Fields.dateTime?

theorem firstFit_append (patterns others : List Pattern) (f : Fields) (cs : List Char) :
    firstFit (patterns ++ others) f cs = (firstFit patterns f cs).or (firstFit others f cs) :=
  List.findSome?_append

theorem firstFit_eq_none {patterns : List Pattern} {f : Fields} {cs : List Char}
    (h : ∀ p ∈ patterns, p.read f cs = none) : firstFit patterns f cs = none := by
  rw [firstFit, List.findSome?_eq_none_iff]
  intro p hp
  rw [h p hp]
  rfl

theorem firstFit_cons_of_none {p : Pattern} {patterns : List Pattern} {f : Fields} {cs : List Char}
    (h : p.read f cs = none) : firstFit (p :: patterns) f cs = firstFit patterns f cs := by
  rw [firstFit, List.findSome?_cons, h]
  rfl

theorem firstFit_cons_of_some {p : Pattern} {patterns : List Pattern} {f f' : Fields}
    {cs : List Char} {t : DateTime} (h : p.read f cs = some f') (ht : f'.dateTime? = some t) :
    firstFit (p :: patterns) f cs = some t := by
  rw [firstFit, List.findSome?_cons, h, Option.bind_some, ht]

theorem firstFit_of_takes {date : Pattern} {f f' : Fields} {cs rest : List Char}
    (h : Takes date f cs f' rest) (suffixes : List Pattern) :
    firstFit (suffixes.map (date ++ ·)) f cs = firstFit suffixes f' rest := by
  rw [firstFit, firstFit, List.findSome?_map]
  congr 1
  funext suffix
  exact congrArg (Option.bind · Fields.dateTime?) (h suffix)

theorem firstFit_of_leaves {date : Pattern} {cs rest : List Char} (h : Leaves date cs rest)
    {suffixes : List Pattern} (hrest : ∀ suffix ∈ suffixes, ∀ f, suffix.read f rest = none)
    (f : Fields) : firstFit (suffixes.map (date ++ ·)) f cs = none := by
  refine firstFit_eq_none (List.forall_mem_map.mpr fun suffix hsuffix => ?_)
  exact h suffix (hrest suffix hsuffix) f

-- What stands behind the date in the patterns with the year first, and in those of a locale.
def isoSuffixes : List Pattern := [
  [.literal 'T'] ++ hourMinuteSecond ++ [.fraction],
  [.blanks] ++ hourMinuteSecond ++ [.fraction],
  [.literal 'T'] ++ hourMinute,
  [.blanks] ++ hourMinute,
  []
]

def localSuffixes : List Pattern :=
  [[], [.blanks] ++ hourMinuteSecond, [.blanks] ++ hourMinute]

theorem isoPatterns_eq :
    isoPatterns = isoSuffixes.map (Coercer.datePattern .yearMonthDay '-' ++ ·) := rfl

theorem localPatterns_eq (order : DateOrder) :
    Coercer.localPatterns order = ['/', '-', '.'].flatMap fun separator =>
      localSuffixes.map (Coercer.datePattern order separator ++ ·) := by
  cases order <;> rfl

end Calendar

-- The numbers of a date, at midnight.
def Date.fields (d : Date) : Fields where
  year := d.year
  month := d.month
  day := d.day

namespace DateTime

variable {t : DateTime} {clock : List Char}

theorem dateTime?_fields (t : DateTime) :
    Fields.dateTime? { t.date.fields with
      hour := t.hour, minute := t.minute, second := t.clockSecond, nano := t.nano % 1000000000 } =
      some t := by
  rw [Fields.dateTime?, Fields.date?, Date.fields, Date.of?_eq_some.mpr ⟨rfl, rfl, rfl⟩]
  exact t.ofClock?_clockSecond

theorem take_blank (t : DateTime) (f : Fields) (rest : List Char) :
    PatternItem.blanks.take f (' ' :: (paddedDigits 2 t.hour ++ rest)) =
      some (f, paddedDigits 2 t.hour ++ rest) :=
  congrArg (fun cs => some (f, cs)) (trimStart_paddedDigits 2 t.hour rest)

-- Behind the blank hours and minutes are read, and what follows them is left.
theorem takes_hourMinute (t : DateTime) (f : Fields) (rest : List Char) :
    Takes ([.blanks] ++ hourMinute) f
      (' ' :: (paddedDigits 2 t.hour ++ ':' :: (paddedDigits 2 t.minute ++ rest)))
      { f with hour := t.hour, minute := t.minute } rest :=
  .cons (t.take_blank f _) (.cons (t.take_hour _ _) (.literal (.cons (t.take_minute _ _) .nil)))

theorem takes_hourMinuteSecond (t : DateTime) (f : Fields) (rest : List Char) :
    Takes ([.blanks] ++ hourMinuteSecond) f (' ' :: (t.clockDigits ++ rest))
      { f with hour := t.hour, minute := t.minute, second := t.clockSecond } rest := by
  have hblank := t.take_blank f
    (':' :: (paddedDigits 2 t.minute ++ ':' :: (paddedDigits 2 t.clockSecond ++ rest)))
  rw [← clockDigits_append] at hblank
  exact .cons hblank (t.takes_clockDigits f rest)

-- Hours and minutes alone are no time with seconds, with a fraction or without.
theorem read_minutes (t : DateTime) (f : Fields) :
    let clock := ' ' :: (paddedDigits 2 t.hour ++ ':' :: paddedDigits 2 t.minute)
    Pattern.read ([.blanks] ++ hourMinute) f clock =
        some { f with hour := t.hour, minute := t.minute } ∧
      Pattern.read ([.blanks] ++ hourMinuteSecond) f clock = none ∧
      Pattern.read ([.blanks] ++ hourMinuteSecond ++ [.fraction]) f clock = none := by
  have htakes := t.takes_hourMinute f []
  rw [List.append_nil] at htakes
  exact ⟨htakes.read, htakes [.literal ':', .second], htakes [.literal ':', .second, .fraction]⟩

theorem read_seconds (t : DateTime) (f : Fields) :
    Pattern.read ([.blanks] ++ hourMinuteSecond) f (' ' :: t.clockDigits) =
        some { f with hour := t.hour, minute := t.minute, second := t.clockSecond } ∧
      Pattern.read ([.blanks] ++ hourMinuteSecond ++ [.fraction]) f (' ' :: t.clockDigits) =
        some { f with hour := t.hour, minute := t.minute, second := t.clockSecond, nano := 0 } := by
  have htakes := t.takes_hourMinuteSecond f []
  rw [List.append_nil] at htakes
  exact ⟨htakes.read, htakes [.fraction]⟩

theorem dateTime?_of_minutes (hsecond : t.second = 0) (hnano : t.nano = 0) :
    Fields.dateTime? { t.date.fields with hour := t.hour, minute := t.minute } = some t := by
  have h := t.dateTime?_fields
  rwa [clockSecond, hsecond, hnano] at h

theorem dateTime?_of_seconds (hnano : t.nano % 1000000000 = 0) :
    Fields.dateTime? { t.date.fields with
      hour := t.hour, minute := t.minute, second := t.clockSecond } = some t := by
  have h := t.dateTime?_fields
  rwa [hnano] at h

-- Of the forms of a time of day the first that fits says the time that is shown.
theorem ShownAs.firstFit_localSuffixes (h : t.ShownAs clock) :
    firstFit localSuffixes t.date.fields clock = some t := by
  cases h with
  | midnight h =>
      obtain ⟨d, rfl⟩ : ∃ d, t = DateTime.midnight d := ⟨_, h⟩
      exact firstFit_cons_of_some rfl (dateTime?_of_minutes (t := DateTime.midnight d) rfl rfl)
  | minutes hsecond hnano =>
      obtain ⟨hminutes, hseconds, -⟩ := t.read_minutes t.date.fields
      rw [localSuffixes, firstFit_cons_of_none rfl, firstFit_cons_of_none hseconds]
      exact firstFit_cons_of_some hminutes (dateTime?_of_minutes hsecond hnano)
  | seconds hnano =>
      obtain ⟨hseconds, -⟩ := t.read_seconds t.date.fields
      rw [localSuffixes, firstFit_cons_of_none rfl]
      exact firstFit_cons_of_some hseconds (dateTime?_of_seconds hnano)

theorem ShownAs.firstFit_isoSuffixes (h : t.ShownAs clock) :
    firstFit isoSuffixes t.date.fields clock = some t := by
  cases h with
  | midnight h =>
      obtain ⟨d, rfl⟩ : ∃ d, t = DateTime.midnight d := ⟨_, h⟩
      rw [isoSuffixes, firstFit_cons_of_none rfl, firstFit_cons_of_none rfl,
        firstFit_cons_of_none rfl, firstFit_cons_of_none rfl]
      exact firstFit_cons_of_some rfl (dateTime?_of_minutes (t := DateTime.midnight d) rfl rfl)
  | minutes hsecond hnano =>
      obtain ⟨hminutes, -, hfraction⟩ := t.read_minutes t.date.fields
      rw [isoSuffixes, firstFit_cons_of_none rfl, firstFit_cons_of_none hfraction,
        firstFit_cons_of_none rfl]
      exact firstFit_cons_of_some hminutes (dateTime?_of_minutes hsecond hnano)
  | seconds hnano =>
      obtain ⟨-, hfraction⟩ := t.read_seconds t.date.fields
      rw [isoSuffixes, firstFit_cons_of_none rfl]
      exact firstFit_cons_of_some hfraction (dateTime?_of_seconds hnano)

theorem ShownAs.eq_nil_or_blank (h : t.ShownAs clock) : clock = [] ∨ ∃ rest, clock = ' ' :: rest := by
  cases h with
  | midnight h => exact .inl rfl
  | minutes hsecond hnano => exact .inr ⟨_, rfl⟩
  | seconds h => exact .inr ⟨_, rfl⟩

theorem ShownAs.endsDigits (h : t.ShownAs clock) : EndsDigits clock := by
  rcases h.eq_nil_or_blank with rfl | ⟨rest, rfl⟩
  · rintro _ _ ⟨⟩
  · exact endsDigits_cons rfl rest

-- Two more digits in front of the time are no hour, since no colon follows them.
theorem ShownAs.read_isoSuffixes (h : t.ShownAs clock) {digits : List Char}
    (hrun : IsRun 2 digits clock) :
    ∀ suffix ∈ isoSuffixes, ∀ f, suffix.read f (digits ++ clock) = none := by
  have hcolon (p : Pattern) (f : Fields) : Pattern.read (.literal ':' :: p) f clock = none := by
    rcases h.eq_nil_or_blank with rfl | ⟨rest, rfl⟩
    · rfl
    · exact read_literal_of_ne (by decide) p f rest
  have hhour (p : Pattern) (f : Fields) :
      Pattern.read ([.blanks, .hour, .literal ':'] ++ p) f (digits ++ clock) = none :=
    Leaves.blanks hrun.trimStart_eq (.number rfl hrun .nil) (.literal ':' :: p) (hcolon p) f
  have hletter (p : Pattern) (f : Fields) :
      Pattern.read (.literal 'T' :: p) f (digits ++ clock) = none := by
    obtain ⟨c, cs, rfl⟩ := List.exists_cons_of_ne_nil hrun.ne_nil
    refine read_literal_of_ne ?_ p f _
    rintro rfl
    exact absurd (hrun.all_digits 'T' (.head _)) (by decide)
  have hmore (f : Fields) : Pattern.read [] f (digits ++ clock) = none := by
    simp [Pattern.read, hrun.ne_nil]
  intro suffix hsuffix f
  simp only [isoSuffixes, List.mem_cons, List.not_mem_nil, or_false] at hsuffix
  rcases hsuffix with rfl | rfl | rfl | rfl | rfl
  · exact hletter _ f
  · exact hhour [.minute, .literal ':', .second, .fraction] f
  · exact hletter _ f
  · exact hhour [.minute] f
  · exact hmore f

end DateTime

namespace Date

variable {d : Date} {order : DateOrder} {separator other : Char} {dayWidth monthWidth : Nat}
  {rest : List Char}

-- Day and month have at most two digits, and the year has four.
theorem isRun_day (d : Date) (hday : dayWidth ≤ 2) (hrest : EndsDigits rest) :
    IsRun 2 (paddedDigits dayWidth d.day) rest :=
  .of_paddedDigits (by decide) d.day_lt.1 hday (.inr hrest)

theorem isRun_month (d : Date) (hmonth : monthWidth ≤ 2) (hrest : EndsDigits rest) :
    IsRun 2 (paddedDigits monthWidth d.month) rest :=
  .of_paddedDigits (by decide) (by have hhigh := d.month_mem.2; omega) hmonth (.inr hrest)

theorem isRun_year (d : Date) (hyear : d.year ≤ 9999) (rest : List Char) :
    IsRun 4 (paddedDigits 4 d.year.toNat) rest :=
  .of_paddedDigits (by decide) (by omega) (Nat.le_refl 4) (.inl rfl)

-- A date in an order is read by the pattern of this order.
theorem takes_digitsIn (hlow : 0 ≤ d.year) (hhigh : d.year ≤ 9999)
    (hseparator : isDigit separator = false) (hday : dayWidth ≤ 2) (hmonth : monthWidth ≤ 2)
    (hrest : EndsDigits rest) :
    Takes (Coercer.datePattern order separator) {}
      (d.digitsIn order separator dayWidth monthWidth ++ rest) d.fields rest := by
  have hends (rest : List Char) := endsDigits_cons hseparator rest
  have hyear' (f : Fields) (rest : List Char) :
      PatternItem.year.take f (paddedDigits 4 d.year.toNat ++ rest) =
        some ({ f with year := d.year }, rest) := by
    rw [PatternItem.take, (d.isRun_year hhigh rest).takeYear_eq, Decimal.ofDigitChars_paddedDigits,
      Int.toNat_of_nonneg hlow]
    rfl
  have hmonth' (f : Fields) {rest : List Char} (hrest : EndsDigits rest) :
      PatternItem.month.take f (paddedDigits monthWidth d.month ++ rest) =
        some ({ f with month := d.month }, rest) := by
    rw [PatternItem.take, (d.isRun_month hmonth hrest).takeWithin_eq,
      Decimal.ofDigitChars_paddedDigits, if_pos d.month_mem]
    rfl
  have hday' (f : Fields) {rest : List Char} (hrest : EndsDigits rest) :
      PatternItem.day.take f (paddedDigits dayWidth d.day ++ rest) =
        some ({ f with day := d.day }, rest) := by
    rw [PatternItem.take, (d.isRun_day hday hrest).takeWithin_eq,
      Decimal.ofDigitChars_paddedDigits, if_pos ⟨d.valid.2.2.1, d.day_lt.2⟩]
    rfl
  cases order <;> simp only [digitsIn, List.append_assoc, List.cons_append]
  · exact .cons (hday' _ (hends _)) (.literal (.cons (hmonth' _ (hends _))
      (.literal (.cons (hyear' _ _) .nil))))
  · exact .cons (hmonth' _ (hends _)) (.literal (.cons (hday' _ (hends _))
      (.literal (.cons (hyear' _ _) .nil))))
  · exact .cons (hyear' _ _) (.literal (.cons (hmonth' _ (hends _))
      (.literal (.cons (hday' _ hrest) .nil))))

-- Patterns of the same order that ask for another separator do not fit, nor do any with the year
-- first, for which the number in front has digits enough.
theorem firstFit_of_other_separator {tried : DateOrder} (hhigh : d.year ≤ 9999)
    (hseparator : isDigit separator = false) (hday : dayWidth ≤ 2) (hmonth : monthWidth ≤ 2)
    (htried : tried = order ∨ tried = .yearMonthDay) (hne : separator ≠ other)
    (suffixes : List Pattern) :
    firstFit (suffixes.map (Coercer.datePattern tried other ++ ·)) {}
      (d.digitsIn order separator dayWidth monthWidth ++ rest) = none := by
  have hends (rest : List Char) := endsDigits_cons hseparator rest
  have hdays (rest : List Char) := d.isRun_day hday (hends rest)
  have hmonths (rest : List Char) := d.isRun_month hmonth (hends rest)
  have hyears := d.isRun_year hhigh
  refine firstFit_eq_none (List.forall_mem_map.mpr fun suffix _ => ?_)
  rcases htried with rfl | rfl
  · cases tried <;> simp only [digitsIn, List.append_assoc, List.cons_append]
    · exact read_of_other_separator rfl (hdays _) hne _ _
    · exact read_of_other_separator rfl (hmonths _) hne _ _
    · exact read_of_other_separator rfl (hyears _) hne _ _
  · cases order <;> simp only [digitsIn, List.append_assoc, List.cons_append]
    · exact read_of_other_separator rfl ((hdays _).widen (hends _)) hne _ _
    · exact read_of_other_separator rfl ((hmonths _).widen (hends _)) hne _ _
    · exact read_of_other_separator rfl (hyears _) hne _ _

-- Four digits are two numbers of two.
theorem exists_halves {n : Nat} (hn : n < 10 ^ 4) (rest : List Char) :
    ∃ front back, paddedDigits 4 n = front ++ back ∧ IsRun 2 front (back ++ rest) ∧
      IsRun 2 back rest := by
  have hlength := Decimal.length_paddedDigits (by decide) hn
  have hdigits : ∀ c ∈ paddedDigits 4 n, isDigit c = true :=
    fun c => Decimal.isDigit_of_mem_paddedDigits
  refine ⟨(paddedDigits 4 n).take 2, (paddedDigits 4 n).drop 2, (List.take_append_drop 2 _).symm,
    .of_length (by decide) (fun c hc => hdigits c (List.mem_of_mem_take hc)) ?_,
    .of_length (by decide) (fun c hc => hdigits c (List.mem_of_mem_drop hc)) ?_⟩
  · rw [List.length_take, hlength]
    rfl
  · rw [List.length_drop, hlength]

-- A date with the year last is none with the year first, though it may begin like one: of the four
-- digits of the year two are left where a time of day is asked for.
theorem firstFit_isoPatterns_of_year_last {t : DateTime} {clock : List Char}
    (hhigh : t.date.year ≤ 9999) (hday : dayWidth ≤ 2) (hmonth : monthWidth ≤ 2)
    (horder : order ≠ .yearMonthDay) (hclock : t.ShownAs clock) :
    firstFit isoPatterns {} (t.date.digitsIn order '-' dayWidth monthWidth ++ clock) = none := by
  have hends (rest : List Char) : EndsDigits ('-' :: rest) := endsDigits_cons rfl rest
  obtain ⟨front, back, hyear, hfront, hback⟩ :=
    exists_halves (show t.date.year.toNat < 10 ^ 4 by omega) clock
  have hleaves {first second : List Char} (hfirst : ∀ rest, IsRun 2 first ('-' :: rest))
      (hsecond : ∀ rest, IsRun 2 second ('-' :: rest)) :
      Leaves (Coercer.datePattern .yearMonthDay '-')
        (first ++ '-' :: (second ++ '-' :: (front ++ (back ++ clock)))) (back ++ clock) :=
    .number rfl ((hfirst _).widen (hends _)) (.literal (.number rfl (hsecond _)
      (.literal (.number rfl hfront .nil))))
  have hdate : Leaves (Coercer.datePattern .yearMonthDay '-')
      (t.date.digitsIn order '-' dayWidth monthWidth ++ clock) (back ++ clock) := by
    cases order <;> simp only [digitsIn, List.append_assoc, List.cons_append, hyear]
    · exact hleaves (fun rest => t.date.isRun_day hday (hends rest))
        fun rest => t.date.isRun_month hmonth (hends rest)
    · exact hleaves (fun rest => t.date.isRun_month hmonth (hends rest))
        fun rest => t.date.isRun_day hday (hends rest)
    · exact absurd rfl horder
  rw [isoPatterns_eq]
  exact firstFit_of_leaves hdate (hclock.read_isoSuffixes hback) {}

end Date

end Sieve

import Sieve.Calendar.Date

namespace Sieve

namespace DateTime

-- A leap second is the 59th second of its minute with a second or more of nanoseconds.
def ValidTime (hour minute second nano : Nat) : Prop :=
  hour < 24 ∧ minute < 60 ∧ second < 60 ∧
    (nano < 1000000000 ∨ (second = 59 ∧ nano < 2000000000))

instance (hour minute second nano : Nat) : Decidable (ValidTime hour minute second nano) :=
  inferInstanceAs (Decidable (_ ∧ _))

end DateTime

-- A time of day on a date, without a time zone.
structure DateTime where
  date : Date
  hour : Nat
  minute : Nat
  second : Nat
  nano : Nat
  valid : DateTime.ValidTime hour minute second nano
  deriving DecidableEq

namespace DateTime

def of? (date : Date) (hour minute second nano : Nat) : Option DateTime :=
  if h : ValidTime hour minute second nano then some ⟨date, hour, minute, second, nano, h⟩
  else none

-- As `of?`, where a leap second may also be counted as second 60.
def ofClock? (date : Date) (hour minute second nano : Nat) : Option DateTime :=
  if second = 60 then of? date hour minute 59 (nano + 1000000000)
  else of? date hour minute second nano

def midnight (date : Date) : DateTime :=
  ⟨date, 0, 0, 0, 0, by decide⟩

instance : Ord DateTime where
  compare a b :=
    ((((compare a.date b.date).then (compare a.hour b.hour)).then
      (compare a.minute b.minute)).then (compare a.second b.second)).then
        (compare a.nano b.nano)

-- The time some minutes later, or earlier, by less than a day.
def shiftMinutes? (t : DateTime) (minutes : Int) : Option DateTime :=
  let total : Int := 60 * t.hour + t.minute + minutes
  let onDay (date : Date) (total : Int) : Option DateTime :=
    of? date (total / 60).toNat (total % 60).toNat t.second t.nano
  if total < 0 then t.date.previous?.bind (onDay · (total + 1440))
  else if 1440 ≤ total then t.date.next?.bind (onDay · (total - 1440))
  else onDay t.date total

-- The second as a clock shows it: 60 in a leap second.
def clockSecond (t : DateTime) : Nat :=
  t.second + t.nano / 1000000000

-- The fraction of a second in thousandths, millionths or billionths, whichever is exact first;
-- nothing for a whole second.
def fractionDigits (nano : Nat) : List Char :=
  if nano = 0 then []
  else if nano % 1000000 = 0 then '.' :: Decimal.paddedDigits 3 (nano / 1000000)
  else if nano % 1000 = 0 then '.' :: Decimal.paddedDigits 6 (nano / 1000)
  else '.' :: Decimal.paddedDigits 9 nano

def clockDigits (t : DateTime) : List Char :=
  Decimal.paddedDigits 2 t.hour ++ [':'] ++ Decimal.paddedDigits 2 t.minute ++ [':'] ++
    Decimal.paddedDigits 2 t.clockSecond

def digits (separator : Char) (t : DateTime) : List Char :=
  t.date.digits ++ [separator] ++ t.clockDigits ++ fractionDigits (t.nano % 1000000000)

-- The text with a `T` between date and time.
def render (t : DateTime) : String :=
  String.ofList (t.digits 'T')

end DateTime

end Sieve

import Sieve.Proofs.Calendar.Text
import Sieve.Proofs.Document.Regex
import Sieve.Proofs.Document.Stored
import Sieve.Proofs.Guid.Text

namespace Sieve

open Calendar

namespace Document

-- How a store reads an instant: a date, a time with or without a fraction, and the mark of UTC.
def instant : Pattern :=
  isoDate ++ [.literal 'T'] ++ hourMinuteSecond ++ [.fraction, .literal 'Z']

def readInstant (text : String) : Option DateTime :=
  instant.dateTime? text.toList

theorem takes_instant (t : DateTime) {fraction : List Char} {nano : Nat}
    (hfraction : takeFraction (fraction ++ ['Z']) = some (nano, ['Z'])) :
    Takes instant {} (t.date.digits ++ 'T' :: (t.clockDigits ++ (fraction ++ ['Z'])))
      { year := t.date.year, month := t.date.month, day := t.date.day, hour := t.hour,
        minute := t.minute, second := t.clockSecond, nano } [] :=
  (t.takes_timestamp {} hfraction).append (.literal .nil)

theorem readInstant_eq (t : DateTime) {fraction : List Char}
    (hfraction : takeFraction (fraction ++ ['Z']) = some (t.nano % 1000000000, ['Z'])) :
    instant.dateTime? (t.date.digits ++ 'T' :: (t.clockDigits ++ (fraction ++ ['Z']))) =
      some t := by
  have hdate : Date.of? t.date.year t.date.month t.date.day = some t.date :=
    Date.of?_eq_some.mpr ⟨rfl, rfl, rfl⟩
  rw [Pattern.dateTime?, (takes_instant t hfraction).read, Option.bind_some, Fields.dateTime?,
    Fields.date?, hdate]
  exact t.ofClock?_clockSecond

theorem readInstant_dateText (d : Date) : readInstant (dateText d) = some (.midnight d) := by
  have htext : (dateText d).toList =
      d.digits ++ 'T' :: ((DateTime.midnight d).clockDigits ++ ([] ++ ['Z'])) := by
    have hzero : Decimal.paddedDigits 2 0 = ['0', '0'] := by
      simp [Decimal.paddedDigits, Decimal.natDigits]
    simp [dateText, Date.render, DateTime.clockDigits, DateTime.clockSecond, DateTime.midnight,
      hzero]
  rw [readInstant, htext]
  exact readInstant_eq (.midnight d) rfl

-- Whole thousandths of a second are written in full.
theorem readInstant_dateTimeText (t : DateTime) (h : t.nano % 1000000 = 0) :
    readInstant (dateTimeText t) = some t := by
  have hmillis : t.nano % 1000000000 / 1000000 < 10 ^ 3 := by omega
  have hnano : t.nano % 1000000000 / 1000000 * 10 ^ (9 - 3) = t.nano % 1000000000 := by omega
  have htext : (dateTimeText t).toList = t.date.digits ++ 'T' :: (t.clockDigits ++
      ('.' :: Decimal.paddedDigits 3 (t.nano % 1000000000 / 1000000) ++ ['Z'])) := by
    simp [dateTimeText]
  have hfraction := takeFraction_paddedDigits (by decide) (by decide) hmillis
    (endsDigits_cons (c := 'Z') rfl [])
  rw [hnano] at hfraction
  rw [readInstant, htext]
  exact readInstant_eq t hfraction

-- What a store reads an operand as. Numbers that are no doubles are integers of 64 bits.
def readOperand : Json → Option Operand
  | .null => some .null
  | .bool b => some (.value (.boolean b))
  | .number (.integer n) => some (.value (.long (Int64.ofInt n)))
  | .number (.double x) => some (.value (.double x))
  | .string s => some (.value (.string s))
  | .object [("$date", .string text)] => (readInstant text).map fun t => .value (.datetime t)
  | .object [("$uuid", .string text)] => (Guid.read text.toList).map fun g => .value (.guid g)
  | .object [("$regex", .string pattern)] => (Regex.read pattern false).map .regex
  | .object [("$options", .string "i"), ("$regex", .string pattern)] =>
    (Regex.read pattern true).map .regex
  | _ => none

end Document

-- A literal that a document can hold exactly.
def Value.Storable : Value → Prop
  | .double x => x.isFinite = true
  | .datetime t => t.nano % 1000000 = 0
  | _ => True

namespace Document

theorem readOperand_valueJson (value : Value) (h : value.Storable) :
    readOperand (valueJson value) = some (.value value.stored) := by
  cases value with
  | double x =>
      have hfinite : x.isFinite = true := h
      rw [valueJson, if_pos hfinite]
      rfl
  | date d => simp [valueJson, readOperand, readInstant_dateText, Value.stored]
  | datetime t => simp [valueJson, readOperand, readInstant_dateTimeText t h, Value.stored]
  | guid g => simp [valueJson, readOperand, Guid.render, Guid.read_digits, Value.stored]
  | long n => simp [valueJson, readOperand, Value.stored]
  | _ => rfl

theorem readOperand_regex (r : Regex) : readOperand r.toJson = some (.regex r) := by
  have hread := r.read_pattern
  obtain ⟨atStart, literal, atEnd, ignoreCase⟩ := r
  cases ignoreCase <;> simp [Regex.toJson, readOperand] <;> exact hread

end Document

namespace Value

-- Stored forms are ordered like what they are the forms of, days and times apart.
theorem compare?_stored (stored literal : Value)
    (hdate : ¬ (stored.kind = .date ∧ literal.kind = .datetime))
    (hday : ¬ (stored.kind = .datetime ∧ literal.kind = .date)) :
    stored.stored.compare? literal.stored = stored.compare? literal := by
  cases stored <;> cases literal
  case date.date d e => exact congrArg some (DateTime.compare_midnights d e)
  case date.datetime => exact absurd ⟨rfl, rfl⟩ hdate
  case datetime.date => exact absurd ⟨rfl, rfl⟩ hday
  all_goals simp [Value.stored, compare?, numeric?]

end Value

end Sieve

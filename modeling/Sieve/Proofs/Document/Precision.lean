import Sieve.Proofs.Document.Leaves
import Sieve.Proofs.Value.Order

-- What documents keep of their literals: all of them but what is finer than a thousandth of a second,
-- and which of the infinities a double is.
namespace Sieve

namespace DateTime

-- The time without what is finer than a thousandth of a second.
def toMillis (t : DateTime) : DateTime where
  date := t.date
  hour := t.hour
  minute := t.minute
  second := t.second
  nano := t.nano / 1000000 * 1000000
  valid := by
    obtain ⟨hhour, hminute, hsecond, hnano⟩ := t.valid
    exact ⟨hhour, hminute, hsecond, by omega⟩

end DateTime

namespace Document

-- A text of a timestamp is that of its thousandth of a second, and is read as that.
theorem dateTimeText_toMillis (t : DateTime) : dateTimeText t.toMillis = dateTimeText t := by
  have hclock : t.toMillis.clockSecond = t.clockSecond := by
    simp only [DateTime.clockSecond, DateTime.toMillis]
    omega
  have hmillis : t.toMillis.nano % 1000000000 / 1000000 = t.nano % 1000000000 / 1000000 := by
    simp only [DateTime.toMillis]
    omega
  rw [dateTimeText, dateTimeText, DateTime.clockDigits, DateTime.clockDigits, hclock, hmillis]
  rfl

theorem readInstant_dateTimeText_toMillis (t : DateTime) :
    readInstant (dateTimeText t) = some t.toMillis := by
  rw [← dateTimeText_toMillis]
  exact readInstant_dateTimeText t.toMillis (Nat.mul_mod_left _ _)

end Document

theorem Double.isFinite_eq_false_iff {x : Float} :
    x.isFinite = false ↔ x.isInf = true ∨ x.isNaN = true := by
  change x.toModel.unpack.isFinite = false ↔
    x.toModel.unpack.isInf = true ∨ x.toModel.unpack.isNaN = true
  cases x.toModel.unpack <;>
    simp [Float.Model.UnpackedFloat.isFinite, Float.Model.UnpackedFloat.isInf,
      Float.Model.UnpackedFloat.isNaN]

namespace Value

variable {u v : Value}

-- Whether a value is an infinite double.
def isInfinite : Value → Bool
  | double x => x.isInf
  | _ => false

-- What a document keeps of a literal.
def kept : Value → Option Value
  | double x => if x.isFinite then some (double x) else none
  | datetime t => some (datetime t.toMillis)
  | value => some value

theorem kept_eq_none_iff (h : u.isNaN = false) : u.kept = none ↔ u.isInfinite = true := by
  cases u with
  | double x =>
      have hfinite : x.isFinite = false ↔ x.isInf = true := by
        rw [Double.isFinite_eq_false_iff, show x.isNaN = false from h]
        simp
      simp [kept, isInfinite, ← hfinite]
  | _ => simp [kept, isInfinite]

theorem eq_of_kept {value : Value} (hkind : u.kind ≠ .datetime) (h : u.kept = some value) :
    u = value := by
  cases u with
  | datetime t => exact absurd rfl hkind
  | double x =>
      rw [kept] at h
      split at h
      · exact Option.some.inj h
      · cases h
  | _ => exact Option.some.inj h

-- Of different values the same is kept if they are the infinities, or lie in the same thousandth of
-- a second.
theorem kept_eq_iff (hkind : u.kind = v.kind) (hu : u.isNaN = false) (hv : v.isNaN = false)
    (hne : u ≠ v) :
    u.kept = v.kept ↔ (u.isInfinite = true ∧ v.isInfinite = true) ∨
      ∃ s t, u = .datetime s ∧ v = .datetime t ∧ s.toMillis = t.toMillis := by
  constructor
  · intro h
    by_cases hdatetime : u.kind = .datetime
    · obtain ⟨s, rfl⟩ := eq_datetime_of_kind hdatetime
      obtain ⟨t, rfl⟩ := eq_datetime_of_kind hkind.symm
      exact .inr ⟨s, t, rfl, rfl, datetime.inj (Option.some.inj h)⟩
    · cases hkept : u.kept with
      | none =>
          exact .inl ⟨(kept_eq_none_iff hu).mp hkept, (kept_eq_none_iff hv).mp (h ▸ hkept)⟩
      | some value =>
          have hfirst := eq_of_kept hdatetime hkept
          have hsecond := eq_of_kept (hkind ▸ hdatetime) (h ▸ hkept)
          exact absurd (hfirst.trans hsecond.symm) hne
  · rintro (⟨hfirst, hsecond⟩ | ⟨s, t, rfl, rfl, h⟩)
    · rw [(kept_eq_none_iff hu).mpr hfirst, (kept_eq_none_iff hv).mpr hsecond]
    · rw [kept, kept, h]

end Value

namespace Document

variable {u v : Value}

theorem valueJson_eq_null_iff : valueJson u = .null ↔ u.kept = none := by
  cases u with
  | double x => cases hfinite : x.isFinite <;> simp [valueJson, Value.kept, hfinite]
  | _ => simp [valueJson, Value.kept]

theorem dateText_inj {d e : Date} : dateText d = dateText e ↔ d = e := by
  constructor
  · intro h
    have hread := (readInstant_dateText d).symm.trans (h ▸ readInstant_dateText e)
    exact congrArg DateTime.date (Option.some.inj hread)
  · rintro rfl
    rfl

theorem dateTimeText_eq_iff {s t : DateTime} :
    dateTimeText s = dateTimeText t ↔ s.toMillis = t.toMillis := by
  constructor
  · intro h
    have hread := (readInstant_dateTimeText_toMillis s).symm.trans
      (h ▸ readInstant_dateTimeText_toMillis t)
    exact Option.some.inj hread
  · intro h
    rw [← dateTimeText_toMillis, h, dateTimeText_toMillis]

theorem render_guid_inj {g h : Guid} : g.render = h.render ↔ g = h := by
  constructor
  · intro heq
    have hdigits : g.digits = h.digits := String.ofList_injective heq
    have hread := g.read_digits
    rw [hdigits, h.read_digits] at hread
    exact (Option.some.inj hread).symm
  · rintro rfl
    rfl

-- Literals of one kind stand in documents alike exactly if the same is kept of them.
theorem valueJson_eq_iff (hkind : u.kind = v.kind) : valueJson u = valueJson v ↔ u.kept = v.kept := by
  cases u <;> cases v <;> cases hkind
  case double.double x y =>
    cases hx : x.isFinite <;> cases hy : y.isFinite <;> simp [valueJson, Value.kept, hx, hy]
  case integer.integer m n => simp [valueJson, Value.kept, Int32.toInt_inj]
  case long.long m n => simp [valueJson, Value.kept, Int64.toInt_inj]
  case date.date d e => simp [valueJson, Value.kept, dateText_inj]
  case datetime.datetime s t => simp [valueJson, Value.kept, dateTimeText_eq_iff]
  case guid.guid g h => simp [valueJson, Value.kept, render_guid_inj]
  all_goals simp [valueJson, Value.kept]

namespace Selector

-- A field without an indexer on its path takes every test, and different tests make different
-- documents of it.
theorem exists_onField {field : FieldRef} (hplain : ∀ indexer key, .index indexer key ∉ field.path) :
    ∃ put : Selector → Selector, (∀ part test, onField part field test = .ok (put test)) ∧
      ∀ test other, (put test).toJson = (put other).toJson ↔ test.toJson = other.toJson := by
  have hname (part : Condition) :
      dottedName part field.path = .ok (".".intercalate field.path.names) :=
    dottedName_eq_ok_iff.mpr ⟨hplain, rfl⟩
  cases helement : field.path.isElement with
  | true => exact ⟨id, fun part test => by rw [onField, helement]; rfl, fun _ _ => Iff.rfl⟩
  | false =>
      refine ⟨inField (".".intercalate field.path.names), fun part test => ?_,
        fun test other => ?_⟩
      · rw [onField, helement, hname]
        rfl
      · simp [toJson]

-- Equality with one of two values that in-memory equality tells apart makes two documents, none of
-- them the test for null, but for what documents do not keep: which of the infinities a double is,
-- for which they ask for null, and what is finer than a thousandth of a second.

private def closing : FieldRef where
  path := [.member "closed", .key "at"]
  kind := .datetime

private def newYearsEve : Date := ⟨2016, 12, 31, by decide⟩

private def lastSecond : DateTime := ⟨newYearsEve, 23, 59, 59, 500000000, by decide⟩

private def leapSecond : DateTime := ⟨newYearsEve, 23, 59, 59, 1500000000, by decide⟩

-- The leap second of a day is not the second before it.

private def balance : FieldRef where
  path := [.member "balance"]
  kind := .double

private def infinity : Float := Float.ofBits 0x7FF0000000000000

private def minusInfinity : Float := Float.ofBits 0xFFF0000000000000

-- The infinities are different, and the documents for them are the same: that for null.

end Selector

end Document

end Sieve

import Sieve.Calendar.DateTime

namespace Sieve

namespace Date

theorem daysInMonth_pos_iff (year : Int) (month : Nat) :
    0 < daysInMonth year month ↔ 1 ≤ month ∧ month ≤ 12 := by
  unfold daysInMonth
  split
  · split <;> decide
  all_goals grind

theorem month_mem (d : Date) : 1 ≤ d.month ∧ d.month ≤ 12 := by
  obtain ⟨-, -, hlow, hhigh⟩ := d.valid
  exact (daysInMonth_pos_iff d.year d.month).mp (by omega)

theorem compare_eq_lt_iff (a b : Date) :
    compare a b = .lt ↔ a.year < b.year ∨
      a.year = b.year ∧ (a.month < b.month ∨ a.month = b.month ∧ a.day < b.day) := by
  change ((compare a.year b.year).then (compare a.month b.month)).then
    (compare a.day b.day) = .lt ↔ _
  simp only [Ordering.then_eq_lt, Ordering.then_eq_eq, Int.compare_eq_lt, Int.compare_eq_eq,
    Nat.compare_eq_lt, Nat.compare_eq_eq]
  omega

theorem compare_eq_gt_iff (a b : Date) :
    compare a b = .gt ↔ b.year < a.year ∨
      a.year = b.year ∧ (b.month < a.month ∨ a.month = b.month ∧ b.day < a.day) := by
  change ((compare a.year b.year).then (compare a.month b.month)).then
    (compare a.day b.day) = .gt ↔ _
  simp only [Ordering.then_eq_gt, Ordering.then_eq_eq, Int.compare_eq_gt, Int.compare_eq_eq,
    Nat.compare_eq_gt, Nat.compare_eq_eq]
  omega

theorem compare_eq_eq_iff (a b : Date) : compare a b = .eq ↔ a = b := by
  change ((compare a.year b.year).then (compare a.month b.month)).then
    (compare a.day b.day) = .eq ↔ _
  simp only [Ordering.then_eq_eq, Int.compare_eq_eq, Nat.compare_eq_eq, and_assoc]
  cases a
  cases b
  simp

theorem of?_eq_some {year : Int} {month day : Nat} {d : Date} :
    of? year month day = some d ↔ d.year = year ∧ d.month = month ∧ d.day = day := by
  unfold of?
  constructor
  · intro h
    split at h
    · cases h
      exact ⟨rfl, rfl, rfl⟩
    · cases h
  · rintro ⟨rfl, rfl, rfl⟩
    rw [dif_pos d.valid]

theorem of?_eq_none {year : Int} {month day : Nat} :
    of? year month day = none ↔ ¬ Valid year month day := by
  unfold of?
  split <;> simp_all

-- A day whose successor is no day of its month is the last one of it.
theorem day_eq_of_not_valid {d : Date} (h : ¬ Valid d.year d.month (d.day + 1)) :
    d.day = daysInMonth d.year d.month := by
  obtain ⟨hmin, hmax, hlow, hhigh⟩ := d.valid
  simp only [Valid, not_and] at h
  have hday := h hmin hmax (by omega)
  omega

theorem month_eq_of_not_valid {d : Date} (h : ¬ Valid d.year (d.month + 1) 1) :
    d.month = 12 := by
  obtain ⟨hmin, hmax, -, -⟩ := d.valid
  have hmonth := d.month_mem
  have hpos := daysInMonth_pos_iff d.year (d.month + 1)
  simp only [Valid, not_and] at h
  have hday := h hmin hmax (by omega)
  omega

theorem next?_eq_some {d next : Date} (h : d.next? = some next) :
    (next.year = d.year ∧ next.month = d.month ∧ next.day = d.day + 1) ∨
      d.day = daysInMonth d.year d.month ∧
        ((next.year = d.year ∧ next.month = d.month + 1 ∧ next.day = 1) ∨
          d.month = 12 ∧ next.year = d.year + 1 ∧ next.month = 1 ∧ next.day = 1) := by
  simp only [next?, Option.orElse_eq_orElse, Option.orElse_eq_or, Option.or_eq_some_iff,
    of?_eq_some, of?_eq_none] at h
  rcases h with hday | ⟨hday, hmonth | ⟨hmonth, hyear⟩⟩
  · exact .inl hday
  · exact .inr ⟨day_eq_of_not_valid hday, .inl hmonth⟩
  · exact .inr ⟨day_eq_of_not_valid hday, .inr ⟨month_eq_of_not_valid hmonth, hyear⟩⟩

theorem next?_eq_none {d : Date} (h : d.next? = none) :
    d.year = maxYear ∧ d.month = 12 ∧ d.day = daysInMonth d.year d.month := by
  obtain ⟨hmin, hmax, -, -⟩ := d.valid
  simp only [next?, Option.orElse_eq_orElse, Option.orElse_eq_or, Option.or_eq_none_iff,
    of?_eq_none] at h
  obtain ⟨hday, hmonth, hyear⟩ := h
  refine ⟨?_, month_eq_of_not_valid hmonth, day_eq_of_not_valid hday⟩
  have hpos := daysInMonth_pos_iff (d.year + 1) 1
  simp only [Valid, not_and] at hyear
  have hbound : ¬ d.year + 1 ≤ maxYear := fun hle => hyear (by omega) hle (by omega) (by omega)
  omega

theorem day_le_of_same_month (d e : Date) (hyear : e.year = d.year) (hmonth : e.month = d.month) :
    e.day ≤ daysInMonth d.year d.month := by
  obtain ⟨-, -, -, hday⟩ := e.valid
  rwa [hyear, hmonth] at hday

-- No day lies between a day and the next one.
theorem compare_next_eq_lt_iff {d next : Date} (h : d.next? = some next) (e : Date) :
    compare e next = .lt ↔ compare e d ≠ .gt := by
  obtain ⟨-, -, hlow, -⟩ := e.valid
  have hmonth := e.month_mem
  have hsame := d.day_le_of_same_month e
  rw [Ne, compare_eq_lt_iff, compare_eq_gt_iff]
  have hnext := next?_eq_some h
  omega

-- Behind a day without a next one there is no day.
theorem compare_ne_gt_of_next?_eq_none {d : Date} (h : d.next? = none) (e : Date) :
    compare e d ≠ .gt := by
  obtain ⟨-, hmax, -, -⟩ := e.valid
  have hmonth := e.month_mem
  have hsame := d.day_le_of_same_month e
  rw [Ne, compare_eq_gt_iff]
  have hlast := next?_eq_none h
  omega

end Date

namespace DateTime

theorem compare_midnight_eq_lt_iff (t : DateTime) (d : Date) :
    compare t (midnight d) = .lt ↔ compare t.date d = .lt := by
  change ((((compare t.date d).then (compare t.hour 0)).then (compare t.minute 0)).then
    (compare t.second 0)).then (compare t.nano 0) = .lt ↔ _
  simp only [Ordering.then_eq_lt, Nat.compare_eq_lt, Nat.not_lt_zero, and_false, or_false]

theorem compare_midnights (d e : Date) : compare (midnight d) (midnight e) = compare d e := by
  change ((((compare d e).then .eq).then .eq).then .eq).then .eq = compare d e
  simp only [Ordering.then_eq]

end DateTime

end Sieve

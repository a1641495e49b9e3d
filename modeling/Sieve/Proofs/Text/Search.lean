import Mathlib.Data.List.Infix
import Sieve.Condition

namespace Sieve

theorem Text.occursIn_iff (needle text : List Char) :
    occursIn needle text = true ↔ needle <:+: text := by
  induction text with
  | nil => simp [occursIn]
  | cons c rest ih => simp [occursIn, ih, List.infix_cons_iff]

namespace TextTest

-- What each test asks of a text: what may stand before the pattern and behind it.
theorem holds_iff (test : TextTest) (text pattern : String) :
    test.holds text pattern = true ↔
      ∃ before after, text.toList = before ++ pattern.toList ++ after ∧
        (test = .beginsWith → before = []) ∧ (test = .endsWith → after = []) := by
  cases test with
  | beginsWith =>
      simp only [holds, List.isPrefixOf_iff_prefix]
      constructor
      · rintro ⟨after, h⟩
        exact ⟨[], after, by simp [h], by simp, by simp⟩
      · rintro ⟨before, after, h, hbefore, -⟩
        obtain rfl := hbefore trivial
        exact ⟨after, by simpa using h.symm⟩
  | contains =>
      simp only [holds, Text.occursIn_iff]
      constructor
      · rintro ⟨before, after, h⟩
        exact ⟨before, after, h.symm, by simp, by simp⟩
      · rintro ⟨before, after, h, -, -⟩
        exact ⟨before, after, h.symm⟩
  | endsWith =>
      simp only [holds, List.isSuffixOf_iff_suffix]
      constructor
      · rintro ⟨before, h⟩
        exact ⟨before, [], by simp [h], by simp, by simp⟩
      · rintro ⟨before, after, h, -, hafter⟩
        obtain rfl := hafter trivial
        exact ⟨before, by simpa using h.symm⟩

end TextTest

end Sieve

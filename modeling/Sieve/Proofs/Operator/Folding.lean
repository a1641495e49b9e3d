import Sieve.Proofs.Operator.Asking
import Sieve.Proofs.Text.LowerCase

-- What a test of stored texts says of the same texts in lower case.
namespace Sieve

variable {coercer : Coercer} {operator : String} {declared : Kind} {values : List Value}
  {type : FieldType} {datum : Datum}

namespace Datum

variable {s : String}

theorem passes_equal_string_iff :
    datum.passes .equal (.string s) = true ↔ datum = .scalar (.string s) := by
  constructor
  · intro h
    cases datum with
    | scalar stored =>
        cases stored with
        | string t =>
            have hst : t = s := by
              simpa [passes, compare?, Value.compare?, Comparison.holds] using h
            rw [hst]
        | _ => cases h
    | _ => cases h
  · rintro rfl
    simp [passes, compare?, Value.compare?, Comparison.holds]

theorem foldCase_eq_string_iff :
    datum.foldCase = .scalar (.string s) ↔
      ∃ t, datum = .scalar (.string t) ∧ Text.lower t = s := by
  constructor
  · intro h
    cases datum with
    | scalar stored =>
        cases stored with
        | string t =>
            cases h
            exact ⟨t, rfl, rfl⟩
        | _ => cases h
    | _ => cases h
  · rintro ⟨t, rfl, rfl⟩
    rfl

theorem passes_equal_foldCase {value : Value} (h : datum.passes .equal value = true) :
    datum.foldCase.passes .equal value.foldCase = true := by
  cases value with
  | string t =>
      obtain rfl := passes_equal_string_iff.mp h
      exact passes_equal_string_iff.mpr rfl
  | _ =>
      cases datum with
      | scalar stored =>
          cases stored with
          | string s => cases h
          | _ => exact h
      | _ => cases h

end Datum

namespace Test

theorem accepts_text_iff {test : TextTest} :
    (Test.text test).accepts values type datum = true ↔
      ∃ pattern s, values = [.string pattern] ∧ datum = .scalar (.string s) ∧
        test.holds s pattern = true := by
  constructor
  · intro h
    rcases values with _ | ⟨value, _ | ⟨second, rest⟩⟩
    · cases h
    · cases value with
      | string pattern =>
          cases datum with
          | scalar stored =>
              cases stored with
              | string s => exact ⟨pattern, s, rfl, rfl, h⟩
              | _ => cases h
          | _ => cases h
      | _ => cases h
    · cases value <;> cases h
  · rintro ⟨pattern, s, rfl, rfl, h⟩
    exact h

-- Whether the lower case of a pattern cannot be missed where the pattern itself is found. Literals
-- of tests that are not of texts are settled always.
def Settled (test : Test) (values : List Value) : Prop :=
  ∀ text pattern, test = .text text → values = [.string pattern] → text.Stable pattern

theorem accepts_foldCase {test : Test}
    (htest : test = .compare .equal ∨ test = .oneOf ∨ ∃ text, test = .text text)
    (hsettled : test.Settled values) (h : test.accepts values type datum = true) :
    test.accepts (values.map Value.foldCase) type datum.foldCase = true := by
  rcases htest with rfl | rfl | ⟨text, rfl⟩
  · rcases values with _ | ⟨value, _ | ⟨second, rest⟩⟩
    · cases h
    · exact Datum.passes_equal_foldCase h
    · cases h
  · obtain ⟨value, hvalue, hpasses⟩ := List.any_eq_true.mp h
    exact List.any_eq_true.mpr
      ⟨value.foldCase, List.mem_map_of_mem hvalue, Datum.passes_equal_foldCase hpasses⟩
  · obtain ⟨pattern, s, rfl, rfl, hholds⟩ := accepts_text_iff.mp h
    exact TextTest.holds_lower (hsettled text pattern rfl rfl) hholds

end Test

namespace Place

variable {place : Place} {op : Operator}

theorem read_folded :
    place.read coercer operator declared true =
      (place.read coercer operator declared false).map Datum.foldCase := by
  by_cases hdynamic : place.type.element = .dynamic
  · simp only [read, hdynamic, if_true]
    cases coercer.coerceDatum place.datum declared <;> rfl
  · simp only [read, hdynamic, if_false]
    rfl

-- A place that passes a test passes it in lower case, and where it is read at all it is read there.
theorem ask_folded
    (htest : op.test = .compare .equal ∨ op.test = .oneOf ∨ ∃ text, op.test = .text text)
    (hsettled : op.test.Settled values) {b : Bool}
    (h : place.ask coercer op declared false values = .ok b) :
    ∃ b', place.ask coercer op declared true (values.map Value.foldCase) = .ok b' ∧
      (b = true → b' = true) := by
  obtain ⟨datum, hread, rfl⟩ := Outcome.map_eq_ok.mp h
  refine ⟨_, ?_, Test.accepts_foldCase htest hsettled⟩
  rw [ask, read_folded, hread]
  rfl

-- A text in a place is read as it stands, or in lower case.
theorem ask_text {path : FieldPath} {fold : Bool} {s : String} :
    ask coercer op .string fold values ⟨type, path, .scalar (.string s)⟩ =
      .ok (op.test.accepts values type (.scalar (.string (if fold then Text.lower s else s)))) := by
  by_cases hdynamic : type.element = .dynamic
  · simp only [ask, read, hdynamic, if_true]
    cases fold <;> rfl
  · simp only [ask, read, hdynamic, if_false]
    cases fold <;> rfl

end Place

end Sieve

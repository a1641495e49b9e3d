import Sieve.Proofs.Condition.Typing
import Sieve.Proofs.Document.Conversion
import Sieve.Proofs.Document.Windows

-- Conditions and the selectors made of them, one test of a field after the other.
namespace Sieve

theorem Text.lowerChar_ne_nil (c : Char) : lowerChar c ≠ [] := by
  unfold lowerChar
  split
  · simp
  · split
    · simp
    · split <;> simp

theorem Text.lower_eq_empty_iff (s : String) : lower s = "" ↔ s = "" := by
  rw [String.ext_iff, String.ext_iff, lower, String.toList_ofList]
  cases s.toList with
  | nil => simp [lowerAfter]
  | cons c rest =>
      by_cases hsigma : c = 'Σ'
      · simp [lowerAfter, hsigma]
      · simp [lowerAfter, hsigma, lowerChar_ne_nil]

-- The ways to test what is in the place of a field: by the day of a timestamp, as a text in lower
-- case, or as it is stored.
inductive FieldRef.Sees (field : FieldRef) (place : Datum) : Prop where
  | day (hday : field.dayOnly = true) (hfold : field.fold = false) (hkind : field.kind = .date)
      (h : place = .null ∨ ∃ t, place = .scalar (.datetime t))
  | folded (hday : field.dayOnly = false) (hfold : field.fold = true) (hkind : field.kind = .string)
      (h : place = .null ∨ ∃ s, place = .scalar (.string s))
  | plain (hday : field.dayOnly = false) (hfold : field.fold = false)
      (h : place = .null ∨ ∃ value, place = .scalar value ∧ ∀ literal, literal.kind = field.kind →
        value.stored.compare? literal.stored = value.compare? literal)

variable {catalog : Catalog} {words : List String} {type last : FieldType} {field : FieldRef}
  {kind : Kind} {datum : Datum}

theorem Value.eq_date_of_kind {value : Value} (h : value.kind = .date) : ∃ d, value = .date d := by
  cases value with
  | date d => exact ⟨d, rfl⟩
  | _ => cases h

theorem Value.eq_datetime_of_kind {value : Value} (h : value.kind = .datetime) :
    ∃ t, value = .datetime t := by
  cases value with
  | datetime t => exact ⟨t, rfl⟩
  | _ => cases h

theorem Value.eq_string_of_kind {value : Value} (h : value.kind = .string) :
    ∃ s, value = .string s := by
  cases value with
  | string s => exact ⟨s, rfl⟩
  | _ => cases h

theorem FieldRef.ReadsScalar.sees (h : field.ReadsScalar catalog words type kind)
    (hdatum : Holds catalog type datum) : field.Sees (datum.walk field.path) := by
  have hplace := h.walk hdatum
  by_cases hday : field.dayOnly = true
  · obtain ⟨hdate, rfl⟩ := h.day.mp hday
    have hfold : field.fold = false := by
      by_contra hfold
      rw [h.text (by simpa using hfold)] at hdate
      cases hdate
    refine .day hday hfold hdate (hplace.imp_right ?_)
    rintro ⟨value, hvalue, hkind⟩
    obtain ⟨t, rfl⟩ := Value.eq_datetime_of_kind hkind
    exact ⟨t, hvalue⟩
  · have hday' : field.dayOnly = false := by simpa using hday
    have haccepts := h.accepts
    by_cases hfold : field.fold = true
    · have hstring := h.text hfold
      obtain rfl : kind = .string := by
        rw [hstring] at haccepts
        cases kind <;> first | rfl | cases haccepts
      refine .folded hday' hfold hstring (hplace.imp_right ?_)
      rintro ⟨value, hvalue, hkind⟩
      obtain ⟨s, rfl⟩ := Value.eq_string_of_kind hkind
      exact ⟨s, hvalue⟩
    · refine .plain hday' (by simpa using hfold) (hplace.imp_right ?_)
      rintro ⟨value, hvalue, rfl⟩
      refine ⟨value, hvalue, fun literal hliteral => Value.compare?_stored value literal ?_ ?_⟩
      · rintro ⟨hstored, hdatetime⟩
        rw [← hliteral, hdatetime, hstored] at haccepts
        cases haccepts
      · rintro ⟨hstored, hdate⟩
        exact hday (h.day.mpr ⟨hliteral.symm.trans hdate, hstored⟩)

namespace Document.Selector

variable {part : Condition} {selector test : Selector}

-- A test put on a field asks it of what the field holds.
theorem holds_onField (hdots : ∀ word ∈ words, '.' ∉ word.toList)
    (hselector : onField part field test = .ok selector)
    (hpath : Leads catalog words type field.path last) (hdatum : Holds catalog type datum) :
    selector.holds datum.stored = test.holds (datum.walk field.path).stored := by
  rcases onField_eq_ok hselector with ⟨hnil, rfl⟩ | ⟨hne, name, hname, rfl⟩
  · rw [hnil]
    rfl
  · rw [holds, dotted_dottedName hname hne hdots hpath hdatum]

-- What is stored is compared with a literal as what it is the form of.
theorem holds_compares_value {op : Comparison} (hop : op ≠ .notEqual) {place : Datum}
    {literal : Value} (hliteral : literal.Storable)
    (hplace : place = .null ∨ ∃ value, place = .scalar value ∧
      value.stored.compare? literal.stored = value.compare? literal) :
    (compares [(op, .value literal)]).holds place.stored = place.passes op literal := by
  simp only [holds, List.all_cons, List.all_nil, Bool.and_true, Operand.toJson,
    readOperand_valueJson literal hliteral, Option.any_some]
  rcases hplace with rfl | ⟨value, rfl, hcompare⟩
  · cases op <;> first | rfl | exact absurd rfl hop
  · simp only [Datum.stored, Datum.passes, Datum.compare?, ← hcompare]
    cases op <;> simp only [Stored.compares, Stored.equals] <;>
      cases value.stored.compare? literal.stored <;> first | rfl | exact absurd rfl hop

-- The other operators on values take such a test for each literal.
theorem isOneOf_value {place : Datum} {literal : Value} (hliteral : literal.Storable)
    (hplace : place = .null ∨ ∃ value, place = .scalar value ∧
      value.stored.compare? literal.stored = value.compare? literal) :
    (readOperand (Operand.toJson (.value literal))).any place.stored.isOneOf =
      place.passes .equal literal := by
  rw [← holds_compares_value (by decide) hliteral hplace]
  simp only [holds, List.all_cons, List.all_nil, Bool.and_true, Operand.toJson,
    readOperand_valueJson literal hliteral, Option.any_some]
  rfl

theorem isMatch_exactly {place : Datum} (pattern : String)
    (hplace : place = .null ∨ ∃ s, place = .scalar (.string s)) :
    place.stored.isMatch (.exactly (.string pattern)) =
      place.foldCase.passes .equal (.string pattern) := by
  rcases hplace with rfl | ⟨s, rfl⟩
  · rfl
  · change (Regex.exactly (.string pattern)).isMatch s = _
    rw [Regex.isMatch_exactly, Bool.eq_iff_iff]
    simp [Datum.foldCase, Value.foldCase, Datum.passes, Datum.compare?, Value.compare?,
      Comparison.holds]

theorem days?_map_date (days : List Date) : days? (days.map .date) = some days := by
  induction days with
  | nil => rfl
  | cons d rest ih => rw [List.map_cons, days?, ih, Option.map_some]

theorem exists_days {values : List Value} (h : ∀ value ∈ values, value.kind = .date) :
    ∃ days : List Date, values = days.map .date := by
  induction values with
  | nil => exact ⟨[], rfl⟩
  | cons value rest ih =>
      rw [List.forall_mem_cons] at h
      obtain ⟨d, rfl⟩ := Value.eq_date_of_kind h.1
      obtain ⟨days, rfl⟩ := ih h.2
      exact ⟨d :: days, rfl⟩

section Leaf

variable (coercer : Coercer) (hdots : ∀ word ∈ words, '.' ∉ word.toList)
  (h : field.ReadsScalar catalog words type kind) (hdatum : Holds catalog type datum)

include hdots h hdatum

theorem eval_ofCompare {op : Comparison} {value : Value} (hop : op ≠ .notEqual)
    (hvalue : value.kind = field.kind) (hstorable : value.Storable)
    (hselector : ofCompare part field op value = .ok selector) :
    (Condition.compare field op value).eval coercer datum = .ok (selector.holds datum.stored) := by
  obtain ⟨nullable, hpath⟩ := h.leads
  rw [Condition.eval, FieldRef.read_of_stored h.stored, Except.map]
  refine congrArg Except.ok ?_
  cases h.sees hdatum with
  | day hday hfold hkind hplace =>
      obtain ⟨d, rfl⟩ := Value.eq_date_of_kind (hvalue.trans hkind)
      simp only [ofCompare, hday] at hselector
      rw [holds_onField hdots hselector hpath hdatum, if_neg (by simp [hfold])]
      rcases hplace with hplace | ⟨t, hplace⟩ <;> rw [hplace]
      · exact (holds_ofDay_null hop d).symm
      · exact (holds_ofDay op d t).symm
  | folded hday hfold hkind hplace =>
      obtain ⟨pattern, rfl⟩ := Value.eq_string_of_kind (hvalue.trans hkind)
      rw [if_pos hfold]
      simp only [ofCompare, hday, hfold, if_true] at hselector
      cases op with
      | equal =>
          rw [holds_onField hdots hselector hpath hdatum, holds, readOperand_regex]
          exact (isMatch_exactly pattern hplace).symm
      | notEqual => exact absurd rfl hop
      | _ => cases hselector
  | plain hday hfold hplace =>
      simp only [ofCompare, hday, hfold, Bool.false_eq_true, if_false] at hselector ⊢
      rw [holds_onField hdots hselector hpath hdatum]
      refine (holds_compares_value hop hstorable (hplace.imp_right ?_)).symm
      rintro ⟨v, hv, hcompare⟩
      exact ⟨v, hv, hcompare value hvalue⟩

theorem eval_ofMembership {values : List Value}
    (hvalues : ∀ value ∈ values, value.kind = field.kind)
    (hstorable : ∀ value ∈ values, value.Storable)
    (hselector : ofMembership part field values = .ok selector) :
    (Condition.oneOf field values).eval coercer datum = .ok (selector.holds datum.stored) := by
  obtain ⟨nullable, hpath⟩ := h.leads
  rw [Condition.eval, FieldRef.read_of_stored h.stored, Except.map]
  refine congrArg Except.ok ?_
  cases h.sees hdatum with
  | day hday hfold hkind hplace =>
      obtain ⟨days, rfl⟩ := exists_days fun value hvalue => (hvalues value hvalue).trans hkind
      rw [if_neg (by simp [hfold])]
      have hdate (d : Date) :
          (datum.walk field.path).passes .equal (.date d) =
            (ofDay .equal d).holds (datum.walk field.path).stored := by
        rcases hplace with hplace | ⟨t, hplace⟩ <;> rw [hplace]
        · exact (holds_ofDay_null (by decide) d).symm
        · exact (holds_ofDay .equal d t).symm
      cases days with
      | nil =>
          rw [ofMembership, hday] at hselector
          rw [holds_onField hdots hselector hpath hdatum]
          rfl
      | cons first rest =>
          obtain ⟨hne, name, hname, rfl⟩ :=
            (ofMembership_days_eq_ok_iff hday (days?_map_date _)).mp hselector
          rw [holds, holdsAny_map, List.any_map]
          refine Outcome.any_congr_of_mem fun d _ => ?_
          rw [holds, dotted_dottedName hname hne hdots hpath hdatum]
          exact hdate d
  | folded hday hfold hkind hplace =>
      rw [if_pos hfold]
      simp only [ofMembership, hday, hfold, if_true] at hselector
      rw [holds_onField hdots hselector hpath hdatum, holds, List.any_map]
      refine Outcome.any_congr_of_mem fun value hvalue => ?_
      obtain ⟨pattern, rfl⟩ := Value.eq_string_of_kind ((hvalues value hvalue).trans hkind)
      rw [Function.comp_apply, Operand.toJson, readOperand_regex]
      exact (isMatch_exactly pattern hplace).symm
  | plain hday hfold hplace =>
      simp only [ofMembership, hday, hfold, Bool.false_eq_true, if_false] at hselector ⊢
      rw [holds_onField hdots hselector hpath hdatum, holds, List.any_map]
      refine Outcome.any_congr_of_mem fun value hvalue => ?_
      refine (isOneOf_value (hstorable value hvalue) (hplace.imp_right ?_)).symm
      rintro ⟨v, hv, hcompare⟩
      exact ⟨v, hv, hcompare value (hvalues value hvalue)⟩

theorem eval_ofRange {low high : Value} (hlow : low.kind = field.kind)
    (hhigh : high.kind = field.kind) (hlowStorable : low.Storable) (hhighStorable : high.Storable)
    (hselector : ofRange part field low high = .ok selector) :
    (Condition.between field low high).eval coercer datum = .ok (selector.holds datum.stored) := by
  obtain ⟨nullable, hpath⟩ := h.leads
  rw [Condition.eval, FieldRef.read_of_stored h.stored, Except.map]
  refine congrArg Except.ok ?_
  cases h.sees hdatum with
  | day hday hfold hkind hplace =>
      obtain ⟨first, rfl⟩ := Value.eq_date_of_kind (hlow.trans hkind)
      obtain ⟨last, rfl⟩ := Value.eq_date_of_kind (hhigh.trans hkind)
      simp only [ofRange, hday, hfold, Bool.false_eq_true, if_false] at hselector ⊢
      rw [holds_onField hdots hselector hpath hdatum]
      rcases hplace with hplace | ⟨t, hplace⟩ <;> rw [hplace]
      · exact (holds_ofDays_null first last).symm
      · exact (holds_ofDays first last t).symm
  | folded hday hfold hkind hplace =>
      simp only [ofRange, hfold, if_true] at hselector
      cases hselector
  | plain hday hfold hplace =>
      simp only [ofRange, hday, hfold, Bool.false_eq_true, if_false] at hselector ⊢
      have hliteral {literal : Value} (hkind : literal.kind = field.kind) :
          datum.walk field.path = .null ∨ ∃ v, datum.walk field.path = .scalar v ∧
            v.stored.compare? literal.stored = v.compare? literal := by
        refine hplace.imp_right ?_
        rintro ⟨v, hv, hcompare⟩
        exact ⟨v, hv, hcompare literal hkind⟩
      rw [holds_onField hdots hselector hpath hdatum, compares_cons,
        holds_compares_value (by decide) hlowStorable (hliteral hlow),
        holds_compares_value (by decide) hhighStorable (hliteral hhigh)]

theorem eval_ofTest {test : TextTest} {pattern : String}
    (hselector : onField part field (.regex (.ofTest test pattern field.fold)) = .ok selector) :
    (Condition.text field test pattern).eval coercer datum = .ok (selector.holds datum.stored) := by
  obtain ⟨nullable, hpath⟩ := h.leads
  rw [Condition.eval, FieldRef.read_of_stored h.stored, Except.map]
  refine congrArg Except.ok ?_
  rw [holds_onField hdots hselector hpath hdatum, holds, readOperand_regex, Option.any_some]
  rcases h.walk hdatum with hplace | ⟨value, hplace, -⟩ <;> rw [hplace]
  · cases field.fold <;> rfl
  · cases value with
    | string s =>
        change _ = (Regex.ofTest test pattern field.fold).isMatch s
        rw [Regex.isMatch_ofTest]
        cases field.fold <;> rfl
    | _ => cases field.fold <;> rfl

theorem eval_isEmptyText
    (hselector : onField part field (.oneOf [.null, .value (.string "")]) = .ok selector) :
    (Condition.isEmpty field .text).eval coercer datum = .ok (selector.holds datum.stored) := by
  obtain ⟨nullable, hpath⟩ := h.leads
  rw [Condition.eval, FieldRef.read_of_stored h.stored, Except.map]
  refine congrArg Except.ok ?_
  rw [holds_onField hdots hselector hpath hdatum]
  rcases h.walk hdatum with hplace | ⟨value, hplace, -⟩ <;> rw [hplace]
  · cases field.fold <;> rfl
  · cases value with
    | string s =>
        have hempty : (if field.fold then Text.lower s else s) = "" ↔ s = "" := by
          cases field.fold with
          | true => exact Text.lower_eq_empty_iff s
          | false => exact Iff.rfl
        have hseen : (if field.fold then (Datum.scalar (.string s)).foldCase else
            .scalar (.string s)) =
              .scalar (.string (if field.fold then Text.lower s else s)) := by
          cases field.fold <;> rfl
        rw [hseen]
        change String.isEmpty _ = (false || (compare s "" == .eq || false))
        rw [Bool.eq_iff_iff, String.isEmpty_iff, hempty]
        simp
    | _ => cases field.fold <;> rfl

end Leaf

section Whole

variable (coercer : Coercer) (hdots : ∀ word ∈ words, '.' ∉ word.toList)
  (hstored : field.coerce = false) (hdatum : Holds catalog type datum)

include hdots hstored hdatum

theorem eval_isNull (hpath : Leads catalog words type field.path last)
    (hselector : onField part field (compares [(.equal, .null)]) = .ok selector) :
    (Condition.isNull field).eval coercer datum = .ok (selector.holds datum.stored) := by
  rw [Condition.eval, FieldRef.read_of_stored hstored, Except.map,
    holds_onField hdots hselector hpath hdatum]
  refine congrArg Except.ok ?_
  generalize datum.walk field.path = place
  cases field.fold <;> cases place <;> rfl

theorem eval_isEmptyCollection {element : FieldType}
    (hpath : Leads catalog words type field.path (.list element))
    (hselector : ofCondition onElement (.isEmpty field .collection) = .ok selector) :
    (Condition.isEmpty field .collection).eval coercer datum =
      .ok (selector.holds datum.stored) := by
  rw [Condition.eval, FieldRef.read_of_stored hstored, Except.map]
  refine congrArg Except.ok ?_
  obtain ⟨hne, name, hname, rfl⟩ := ofCondition_isEmpty_eq_ok hselector
  have hholds : (any [inField name missing, inField name (size 0)]).holds datum.stored =
      ((datum.stored.dotted name).isNull ||
        ((size 0).holds (datum.stored.dotted name) || false)) := rfl
  rw [hholds, dotted_dottedName hname hne hdots hpath hdatum]
  rcases hdatum.walk hpath with hplace | hconforms
  · rw [hplace]
    cases field.fold <;> rfl
  · generalize datum.walk field.path = place at hconforms
    cases hconforms with
    | null h => cases field.fold <;> rfl
    | @list _ items h =>
        rw [Datum.stored, Datum.storedItems_eq_map]
        cases items <;> cases field.fold <;> rfl

end Whole

end Document.Selector

end Sieve

import Sieve.Proofs.Document.Leaves
import Sieve.Proofs.Document.Places

-- Fields that are compared by their day, as documents ask for them: by comparisons of timestamps with
-- midnights.
namespace Sieve

-- What a store finds where a document asks for a field: the current element itself, or what lies
-- behind the dotted name of the path.
def FieldRef.placeIn (field : FieldRef) (stored : Stored) : Stored :=
  if field.path.isElement then stored else stored.dotted (".".intercalate field.path.names)

namespace Document.Selector

variable {part condition : Condition} {field : FieldRef} {selector test : Selector}
  {stored : Stored}

theorem placeIn_of_ne (hne : field.path ≠ []) :
    field.placeIn stored = stored.dotted (".".intercalate field.path.names) := by
  rw [FieldRef.placeIn, if_neg (by simpa [FieldPath.isElement] using hne)]

-- A test put on a field is asked of its place.
theorem holds_onField_eq (h : onField part field test = .ok selector) :
    selector.holds stored = test.holds (field.placeIn stored) := by
  rcases onField_eq_ok h with ⟨hnil, rfl⟩ | ⟨hne, name, hname, rfl⟩
  · rw [FieldRef.placeIn, hnil]
    rfl
  · obtain ⟨-, rfl⟩ := dottedName_eq_ok_iff.mp hname
    rw [placeIn_of_ne hne, holds]

-- A condition has a document in certain cases only. Of the timestamps in the place of a field this
-- selects those of certain days. So says the JSON of it too, if no name on the path is one of the
-- store's own.
structure WritesDays (condition : Condition) (field : FieldRef) (writable : Prop)
    (days : Date → Prop) : Prop where
  exists_iff (onElement : Bool) :
    (∃ selector, ofCondition onElement condition = .ok selector) ↔ writable
  holds_iff {onElement : Bool} {selector : Selector} {stored : Stored} {t : DateTime}
    (hselector : ofCondition onElement condition = .ok selector)
    (hplace : field.placeIn stored = .value (.datetime t)) :
    selector.holds stored = true ↔ days t.date
  selects_iff {onElement : Bool} {selector : Selector} {stored : Stored} {t : DateTime}
    (hselector : ofCondition onElement condition = .ok selector)
    (hplace : field.placeIn stored = .value (.datetime t))
    (hdollar : Unreserved field.path.names) :
    (if field.path.isElement then tests selector.toJson stored
      else selects selector.toJson stored) = true ↔ days t.date

-- The JSON of a selector that is in its place says what the selector says.
theorem WritesDays.of_holds {writable : Prop} {days : Date → Prop}
    (hexists : ∀ onElement, (∃ selector, ofCondition onElement condition = .ok selector) ↔ writable)
    (hholds : ∀ onElement selector stored t, ofCondition onElement condition = .ok selector →
      field.placeIn stored = .value (.datetime t) → (selector.holds stored = true ↔ days t.date))
    (hsuits : ∀ onElement selector, ofCondition onElement condition = .ok selector →
      Unreserved field.path.names → Suits field.path.isElement selector) :
    WritesDays condition field writable days where
  exists_iff := hexists
  holds_iff := hholds _ _ _ _
  selects_iff hselector hplace hdollar := by
    rw [(hsuits _ _ hselector hdollar).toJson_eq_holds]
    exact hholds _ _ _ _ hselector hplace

section ByDay

variable (hday : field.dayOnly = true)

include hday

theorem writesDays_compare (op : Comparison) (day : Date) :
    WritesDays (.compare field op (.date day)) field field.path.Nameable
      fun d => op.holds (compare d day) = true := by
  have hcondition (onElement : Bool) : ofCondition onElement (.compare field op (.date day)) =
      onField (.compare field op (.date day)) field (ofDay op day) := by
    simp only [ofCondition, ofCompare, hday]
  refine .of_holds (fun onElement => ?_) (fun onElement selector stored t hselector hplace => ?_)
    fun onElement selector hselector hdollar => suits_ofCompare hdollar hselector
  · rw [hcondition]
    exact exists_onField_iff
  · rw [hcondition] at hselector
    rw [holds_onField_eq hselector, hplace, holds_ofDay]

theorem writesDays_between (low high : Date) :
    WritesDays (.between field (.date low) (.date high)) field
      (field.path.Nameable ∧ field.fold = false)
      fun d => compare d low ≠ .lt ∧ compare d high ≠ .gt := by
  have hcondition (onElement : Bool) (selector : Selector) :
      ofCondition onElement (.between field (.date low) (.date high)) = .ok selector ↔
        onField (.between field (.date low) (.date high)) field (ofDays (.date low) high) =
          .ok selector ∧ field.fold = false := by
    cases hfold : field.fold <;> simp [ofCondition, ofRange, hday, hfold]
  refine .of_holds (fun onElement => ?_) (fun onElement selector stored t hselector hplace => ?_)
    fun onElement selector hselector hdollar => suits_ofRange hdollar hselector
  · simp only [hcondition, exists_and_right, exists_onField_iff]
  · obtain ⟨hselector, -⟩ := (hcondition onElement selector).mp hselector
    rw [holds_onField_eq hselector, hplace, holds_ofDays]
    simp [Comparison.holds]

theorem writesDays_oneOf (days : List Date) :
    WritesDays (.oneOf field (days.map .date)) field
      (field.path.Nameable ∧ (field.path = [] → days = [])) fun d => d ∈ days := by
  cases days with
  | nil =>
      have hcondition (onElement : Bool) : ofCondition onElement (.oneOf field []) =
          onField (.oneOf field []) field (.oneOf []) :=
        ofMembership_nil
      refine .of_holds (fun onElement => ?_)
        (fun onElement selector stored t hselector hplace => ?_)
        fun onElement selector hselector hdollar => suits_ofMembership hdollar hselector
      · rw [List.map_nil, hcondition, exists_onField_iff]
        simp
      · rw [List.map_nil, hcondition] at hselector
        rw [holds_onField_eq hselector, hplace]
        simp [holds]
  | cons first rest =>
      have hcondition (onElement : Bool) (selector : Selector) :
          ofCondition onElement (.oneOf field ((first :: rest).map .date)) = .ok selector ↔
            field.path ≠ [] ∧ ∃ name,
              dottedName (.oneOf field ((first :: rest).map .date)) field.path = .ok name ∧
                any ((first :: rest).map fun day => inField name (ofDay .equal day)) = selector :=
        ofMembership_days_eq_ok_iff hday (days?_map_date (first :: rest))
      refine .of_holds (fun onElement => ?_)
        (fun onElement selector stored t hselector hplace => ?_)
        fun onElement selector hselector hdollar => suits_ofMembership hdollar hselector
      · simp only [hcondition, dottedName_eq_ok_iff]
        simp [and_comm]
      · obtain ⟨hne, name, hname, rfl⟩ := (hcondition onElement selector).mp hselector
        have hwindow (day : Date) : (inField name (ofDay .equal day)).holds stored =
            (compare t.date day == .eq) := by
          obtain ⟨-, rfl⟩ := dottedName_eq_ok_iff.mp hname
          rw [placeIn_of_ne hne] at hplace
          rw [holds, hplace, holds_ofDay, Comparison.holds]
        rw [holds, holdsAny_map]
        simp only [hwindow, List.any_eq_true, beq_iff_eq, Date.compare_eq_eq_iff, exists_eq_right']

end ByDay

-- On a field that is compared by its day, the document of a comparison selects the timestamps whose
-- day compares so, that of a range those with a day in it, and that of a list those with a day among
-- its days. There are these documents wherever the path has a name, but for ranges that ignore case
-- and for lists that elements themselves are held against.
theorem days_selected_exactly (field : FieldRef) (hday : field.dayOnly = true) :
    (∀ (op : Comparison) (day : Date), WritesDays (.compare field op (.date day)) field
      field.path.Nameable fun d => op.holds (compare d day) = true) ∧
    (∀ low high : Date, WritesDays (.between field (.date low) (.date high)) field
      (field.path.Nameable ∧ field.fold = false)
      fun d => compare d low ≠ .lt ∧ compare d high ≠ .gt) ∧
    ∀ days : List Date, WritesDays (.oneOf field (days.map .date)) field
      (field.path.Nameable ∧ (field.path = [] → days = [])) fun d => d ∈ days :=
  ⟨writesDays_compare hday, writesDays_between hday, writesDays_oneOf hday⟩

private def sealedOn : FieldRef where
  path := [.member "seal", .key "set"]
  kind := .date
  dayOnly := true

private theorem valid_finalDay : Date.Valid 262142 12 31 := by decide

private def finalDay : Date := ⟨262142, 12, 31, valid_finalDay⟩

private def finalEve : Date := ⟨262142, 12, 30, by decide⟩

private def finalSecond : DateTime := ⟨finalDay, 23, 59, 59, 1999999999, by decide⟩

private def deed : Stored :=
  .document [("seal", .document [("set", .value (.datetime finalSecond))])]

-- A leap second at the end of all days is on the last of them, and in no range from that day to the
-- one before.
theorem finalSecond_selected_on_finalDay :
    sealedOn.dayOnly = true ∧
      (∃ selector, ofCondition false (.compare sealedOn .lessOrEqual (.date finalDay)) =
        .ok selector ∧ selects selector.toJson deed = true) ∧
      (∃ selector, ofCondition false (.between sealedOn (.date finalDay) (.date finalEve)) =
        .ok selector ∧ selects selector.toJson deed = false) ∧
      ∃ selector, ofCondition false (.oneOf sealedOn ([finalEve, finalDay].map .date)) =
        .ok selector ∧ selects selector.toJson deed = true := by
  have hnameable : sealedOn.path.Nameable := by simp [FieldPath.Nameable, sealedOn]
  have hplace : sealedOn.placeIn deed = .value (.datetime finalSecond) := by rfl
  have hdollar : Unreserved sealedOn.path.names := by
    have hnames : sealedOn.path.names = ["seal", "set"] := rfl
    rw [hnames]
    simp [Unreserved]
  obtain ⟨hcompare, hbetween, honeOf⟩ := days_selected_exactly sealedOn rfl
  refine ⟨rfl, ?_, ?_, ?_⟩
  · obtain ⟨selector, hselector⟩ := ((hcompare .lessOrEqual finalDay).exists_iff false).mpr hnameable
    refine ⟨selector, hselector, ?_⟩
    exact ((hcompare .lessOrEqual finalDay).selects_iff hselector hplace hdollar).mpr (by decide)
  · obtain ⟨selector, hselector⟩ :=
      ((hbetween finalDay finalEve).exists_iff false).mpr ⟨hnameable, rfl⟩
    refine ⟨selector, hselector, Bool.eq_false_iff.mpr fun hselects => ?_⟩
    obtain ⟨-, hhigh⟩ :=
      ((hbetween finalDay finalEve).selects_iff hselector hplace hdollar).mp hselects
    exact hhigh (by decide)
  · obtain ⟨selector, hselector⟩ :=
      ((honeOf [finalEve, finalDay]).exists_iff false).mpr ⟨hnameable, by simp [sealedOn]⟩
    refine ⟨selector, hselector, ?_⟩
    exact ((honeOf [finalEve, finalDay]).selects_iff hselector hplace hdollar).mpr (by decide)

end Document.Selector

end Sieve

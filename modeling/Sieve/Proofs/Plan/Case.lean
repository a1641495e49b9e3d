import Sieve.Proofs.Condition.Case
import Sieve.Proofs.Operator.Asking
import Sieve.Proofs.Plan.Leaf

-- Rules that are compiled to compare texts in lower case do not see case at all.
namespace Sieve

variable {record : RecordType} {options : Options} {field : FieldRef} {values : List Value}

theorem FieldRef.ignoresCase_of_kind (hstored : field.coerce = false)
    (hfolds : field.kind = .string → field.fold = true)
    (hvalues : ∀ value ∈ values, value.kind = field.kind) : field.IgnoresCase values where
  stored := hstored
  folds := by
    intro hfold value hvalue hstring
    rw [hvalues value hvalue] at hstring
    rw [hfolds hstring] at hfold
    cases hfold

namespace Test

theorem ignoresCase_onValue {test : Test} (hstored : field.coerce = false)
    (hfolds : field.kind = .string → field.fold = true)
    (hvalues : ∀ value ∈ values, value.kind = field.kind)
    (htext : ∀ op, test = .text op → field.kind = .string) (hempty : test ≠ .isEmpty) :
    (test.onValue field values).IgnoresCase := by
  have hliterals {literals : List Value} (h : ∀ literal ∈ literals, literal.kind = field.kind) :
      field.IgnoresCase literals :=
    FieldRef.ignoresCase_of_kind hstored hfolds h
  apply onValue_induction
  case constant => exact .constant false
  case compare =>
    exact fun _ _ value hvalue => .compare (hliterals (by simpa using hvalues value hvalue))
  case oneOf => exact fun _ => .oneOf (hliterals hvalues)
  case between =>
    exact fun _ low hlow high hhigh =>
      .between (hliterals (by simpa using ⟨hvalues low hlow, hvalues high hhigh⟩))
  case text =>
    exact fun op hop _ => .text (hliterals (by simpa [Value.kind] using (htext op hop).symm))
  case isNull => exact fun _ => .isNull hstored
  case isEmpty => exact fun h => absurd h hempty

theorem ignoresCase_build {test : Test} {r : Resolution} {declared : Kind} {fold : Bool}
    (nullable : Bool) (hdynamic : r.type.element ≠ .dynamic)
    (hfolds : declared = .string → fold = true) (hvalues : ∀ value ∈ values, value.kind = declared)
    (hmisuse : test.misuse? r.type declared = none) :
    (test.build (r.fieldRef declared fold) r.type.isCollection nullable values).IgnoresCase := by
  have hstored := Resolution.coerce_fieldRef hdynamic declared fold
  have hfold : declared = .string → (r.fieldRef declared fold).fold = true := by
    rintro rfl
    exact Bool.and_eq_true_iff.mpr ⟨hfolds rfl, rfl⟩
  have htext : ∀ op, test = .text op → declared = .string := by
    rintro op rfl
    exact string_of_misuse? hmisuse
  have hvalue (path : FieldPath) (hempty : test ≠ .isEmpty) :
      (test.onValue { r.fieldRef declared fold with path } values).IgnoresCase :=
    ignoresCase_onValue hstored hfold hvalues htext hempty
  cases test with
  | isNull =>
      unfold build
      dsimp only
      split
      · exact .isNull hstored
      · exact .constant false
  | isEmpty =>
      unfold build
      dsimp only
      cases hcollection : r.type.isCollection with
      | true => exact .isEmptyCollection hstored
      | false =>
          have hstring : declared = .string := by
            by_contra hne
            simp [misuse?, hcollection, hne] at hmisuse
          refine .isEmptyText (FieldRef.ignoresCase_of_kind hstored hfold ?_)
          exact List.forall_mem_singleton.mpr hstring.symm
  | _ =>
      rw [build_of_value (by simp) (by simp)]
      split
      · rw [Resolution.elementOf_fieldRef]
        exact .anyElement (hvalue [] (by simp))
      · exact hvalue r.path (by simp)

end Test

theorem ignoresCase_of_leaf {leaf : Rule} {condition : Condition} (hleaf : leaf.isLeaf = true)
    (hplain : leaf.IsPlain record options) (hcase : options.caseSensitive = false)
    (h : compile record options (some leaf) = .ok condition) : condition.IgnoresCase := by
  rw [compile_leaf hleaf] at h
  obtain ⟨plan, hplan, hbind⟩ := Outcome.bind_eq_ok.mp h
  obtain ⟨hfield, -, ⟨name, hname, hfound⟩, hresolve, -, htarget, hfold⟩ := Plan.ofLeaf_eq_ok hplan
  obtain ⟨op, hbinding⟩ := Plan.eq_builtin_of_findOperator (hplain.builtin name hname) hfound
  rw [hbinding] at htarget
  rw [LeafPlan.bind_builtin hbinding] at hbind
  obtain ⟨values, hvalues, rfl⟩ := Outcome.map_eq_ok.mp hbind
  have hfolds : plan.declared = .string → plan.fold = true := by
    intro hstring
    rw [hfold, Options.folds, hstring, hcase]
    rfl
  have hpositive : (plan.positive op.test values).IgnoresCase :=
    (Test.ignoresCase_build plan.resolution.nullable
      (hplain.field plan.field hfield plan.resolution hresolve) hfolds
      (LeafPlan.kind_of_values hvalues) (Plan.checkTarget_eq_ok htarget)).quantify _
  split
  · exact hpositive.negate
  · exact hpositive

namespace Filter

-- A filter that compares texts in lower case comes to the same for records that are the same but
-- for texts with the same lower case.
theorem evaluate_eq_of_sameButCase {rule : Option Rule} {filter : Filter} {a b : Datum}
    (hcase : options.caseSensitive = false)
    (hplain : ∀ leaf ∈ Rule.leavesOf rule.toList, leaf.IsPlain record options)
    (h : build record options rule = .ok filter) (hab : a.SameButCase b) :
    filter.evaluate a = filter.evaluate b := by
  refine Condition.eval_eq_of_sameButCase ?_ hab
  refine compile_induction (.constant true) (fun _ _ => Condition.IgnoresCase.combine) ?_
    (build_eq_ok.mp h).1
  intro leaf hleaf condition hcompile
  obtain ⟨tree, htree, hmem⟩ := Rule.mem_leavesOf.mp hleaf
  exact ignoresCase_of_leaf (Rule.isLeaf_of_mem_leaves hmem) (hplain leaf hleaf) hcase hcompile

private def towns : RecordType :=
  ⟨[⟨"Town", [("streets", .list (.object 1)), ("notes", .map (.list (.scalar .string true)))],
      none⟩,
    ⟨"Street", [("name", .scalar .string false)], none⟩], 0⟩

private def unlisted : Rule := .leaf "streets.name" "not_in" "string" (some (.text "[ΑΓΟΡΑ, ΠΥΛΗ]"))

private def signed : Rule := .leaf "notes.signs" "ends_with" "string" (some (.text "ΟΔΟΣ"))

private def signposted : Rule := .fork .and [unlisted, signed]

private def town (street sign : String) : Datum :=
  .record [("streets", .list [.record [("name", .scalar (.string street))] []]),
    ("notes", .map [("signs", .list [.null, .scalar (.string sign)])])] []

-- A name and a sign in capitals, and the same in small letters with both forms of the sigma.
theorem signposted_ignores_capitals :
    ∃ filter, build towns {} (some signposted) = .ok filter ∧
      filter.evaluate (town "ΣΤΟΑ" "ΣΤΕΝΗ ΟΔΟΣ") = .ok true ∧
      filter.evaluate (town "στοα" "στενη οδος") = .ok true := by
  have hrun : (build towns {} (some signposted)).map (·.evaluate (town "ΣΤΟΑ" "ΣΤΕΝΗ ΟΔΟΣ")) =
      .ok (.ok true) := by
    decide +kernel
  obtain ⟨filter, h, hcapitals⟩ := Outcome.map_eq_ok.mp hrun
  have hplain : ∀ leaf ∈ Rule.leavesOf (some signposted).toList, leaf.IsPlain towns {} := by
    have hleaves : Rule.leavesOf (some signposted).toList = [unlisted, signed] := rfl
    have hstreets : (Resolution.resolve towns {} "streets.name").map (·.type) =
        .ok (.scalar .string false) := by decide +kernel
    have hsigns : (Resolution.resolve towns {} "notes.signs").map (·.type) =
        .ok (.list (.scalar .string true)) := by decide +kernel
    rw [hleaves, List.forall_mem_cons, List.forall_mem_singleton]
    exact ⟨.of_type rfl rfl rfl hstreets nofun, .of_type rfl rfl rfl hsigns nofun⟩
  have hsame : (town "ΣΤΟΑ" "ΣΤΕΝΗ ΟΔΟΣ").SameButCase (town "στοα" "στενη οδος") := by
    refine .record (.cons (.list (.cons (.record (.cons (.text ?_) .nil) .nil) .nil))
      (.cons (.map (.cons (.list (.cons .null (.cons (.text ?_) .nil))) .nil)) .nil)) .nil
    · decide +kernel
    · decide +kernel
  have hsmall := evaluate_eq_of_sameButCase rfl hplain h hsame
  exact ⟨filter, h, hcapitals, hsmall.symm.trans hcapitals⟩

end Filter

end Sieve

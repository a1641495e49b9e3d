import Sieve.Proofs.Document.Leaves
import Sieve.Proofs.Document.Places

-- Comparisons as documents ask for them, inequality included: where they say what evaluation says.
namespace Sieve

namespace Datum

-- What lies behind some names of members. Behind something missing there is nothing.
inductive LiesBehind : List String → Datum → Datum → Prop where
  | here (place : Datum) : LiesBehind [] place place
  | member {name : String} {names : List String} {members indexed : List (String × Datum)}
      {place : Datum} (h : LiesBehind names ((members.lookup name).getD .null) place) :
      LiesBehind (name :: names) (.record members indexed) place
  | missing (name : String) (names : List String) : LiesBehind (name :: names) .null .null

variable {names : List String} {datum place : Datum}

theorem walk_null (path : FieldPath) : null.walk path = null := by
  induction path with
  | nil => rfl
  | cons step path ih =>
      rw [walk, List.foldl_cons, show null.step step = null by cases step <;> rfl]
      exact ih

theorem LiesBehind.walk (h : LiesBehind names datum place) :
    datum.walk (names.map .member) = place := by
  induction h with
  | here place => rfl
  | member h ih => exact ih
  | missing name names => exact walk_null _

theorem LiesBehind.read_stored (h : LiesBehind names datum place) :
    datum.stored.read names = place.stored := by
  induction h with
  | here place => rfl
  | @member name names members indexed place h ih =>
      rw [← ih, ← lookup_storedMembers]
      rfl
  | missing name names =>
      have hnull (names : List String) : Stored.null.read names = .null := by
        induction names with
        | nil => rfl
        | cons name names ih => exact ih
      exact hnull (name :: names)

-- A text that is a literal up to case, but not in lower case; or the other way about.
def InOtherCase (place : Datum) (value : Value) : Prop :=
  ∃ s pattern, place = .scalar (.string s) ∧ value = .string pattern ∧
    ¬ (Text.lower s = Text.lower pattern ↔ Text.lower s = pattern)

-- To be unequal to a literal is the opposite of being equal to it, but where nothing can be held
-- against it.
theorem not_passes_equal_iff {literal : Value} :
    ((!datum.passes .equal literal) = true ↔ datum.passes .notEqual literal = true) ↔
      datum.compare? literal ≠ none := by
  rw [passes, passes]
  cases datum.compare? literal with
  | none => simp
  | some order => cases order <;> simp [Comparison.holds]

end Datum

namespace FieldRef

-- The day that a comparison with a literal is made by, if it is made by days.
def day? (field : FieldRef) (value : Value) : Option Date :=
  match field.dayOnly, value with
  | true, .date day => some day
  | _, _ => none

theorem day?_eq_some {field : FieldRef} {value : Value} {day : Date}
    (h : field.day? value = some day) : field.dayOnly = true ∧ value = .date day := by
  unfold day? at h
  split at h
  · rename_i hday
    cases h
    exact ⟨hday, rfl⟩
  · cases h

-- The data that a comparison with a literal is about: nothing, and values of the literal's kind;
-- where timestamps are compared by their day, timestamps as well.
def ComparesWith (field : FieldRef) (value : Value) (place : Datum) : Prop :=
  place = .null ∨ ∃ stored, place = .scalar stored ∧
    (stored.kind = value.kind ∨ ∃ day, field.day? value = some day ∧ stored.kind = .datetime)

-- Where the document of a comparison says something else than evaluation. A document selects what is
-- unequal to a literal also where nothing can be held against it, the last day of all aside. A
-- regular expression finds no literal but a text, and a text in whatever case it is given, where
-- evaluation only puts what is stored in lower case.
def Strays (field : FieldRef) (op : Comparison) (value : Value) (place : Datum) : Prop :=
  match field.day? value with
  | some day => op = .notEqual ∧ place = .null ∧ day.next? ≠ none
  | none =>
    (op = .notEqual ∧ place.compare? value = none) ∨
    (field.fold = true ∧ value.kind ≠ .string ∧ place.compare? value = some .eq) ∨
    (field.fold = true ∧ place.InOtherCase value)

end FieldRef

-- As a store reads a regular expression that ignores case: it ignores the case of the pattern too.
def Document.Regex.caseless (r : Regex) : Regex :=
  if r.ignoreCase then { r with literal := Text.lower r.literal } else r

namespace Document.Selector

-- The same for the regular expression in the test of a field.
def caseless : Selector → Selector
  | inField name test => inField name test.caseless
  | not test => not test.caseless
  | regex r => regex r.caseless
  | selector => selector

variable {part : Condition} {field : FieldRef} {op : Comparison} {value : Value}
  {selector test : Selector} {names : List String} {datum place : Datum}

theorem fieldName_members (names : List String) :
    fieldName part (names.map .member) = .ok names := by
  rw [fieldName_eq_ok_iff, FieldPath.names, List.filterMap_map]
  simp [FieldPath.Nameable, Function.comp_def, Step.name?]

theorem onField_members (hpath : field.path = names.map .member) (hne : names ≠ []) :
    onField part field test = .ok (inField (".".intercalate names) test) := by
  have helement : field.path.isElement = false := by
    rw [hpath, FieldPath.isElement, List.isEmpty_eq_false_iff]
    simpa using hne
  rw [onField, helement, if_neg Bool.false_ne_true, dottedName, hpath, fieldName_members]
  rfl

-- A test put on a member asks it of what lies behind its names.
theorem holds_inField_members (hne : names ≠ []) (hdots : ∀ name ∈ names, '.' ∉ name.toList)
    (h : datum.LiesBehind names place) :
    (inField (".".intercalate names) test).holds datum.stored = test.holds place.stored := by
  rw [holds, Stored.dotted, splitOn_intercalate hne hdots, h.read_stored]

-- The test that a comparison becomes: of the day, of a text in any case, or of the value as it is.
inductive TestOf (field : FieldRef) (op : Comparison) (value : Value) : Selector → Prop where
  | day {day : Date} (h : field.day? value = some day) : TestOf field op value (ofDay op day)
  | equal (hday : field.day? value = none) (hfold : field.fold = true) (hop : op = .equal) :
      TestOf field op value (.regex (.exactly value))
  | unequal (hday : field.day? value = none) (hfold : field.fold = true) (hop : op = .notEqual) :
      TestOf field op value (.not (.regex (.exactly value)))
  | plain (hday : field.day? value = none) (hfold : field.fold = false) :
      TestOf field op value (.compares [(op, .value value)])

theorem ofCompare_eq_ok (h : ofCompare part field op value = .ok selector) :
    ∃ test, TestOf field op value test ∧ onField part field test = .ok selector := by
  cases hday : field.day? value with
  | some day =>
      obtain ⟨hdayOnly, rfl⟩ := FieldRef.day?_eq_some hday
      simp only [ofCompare, hdayOnly] at h
      exact ⟨_, .day hday, h⟩
  | none =>
      unfold ofCompare at h
      split at h
      · rename_i hdayOnly
        simp [FieldRef.day?, hdayOnly] at hday
      · split at h
        · rename_i hfold
          split at h
          · exact ⟨_, .equal hday hfold rfl, h⟩
          · exact ⟨_, .unequal hday hfold rfl, h⟩
          · cases h
        · rename_i hfold
          exact ⟨_, .plain hday (Bool.eq_false_iff.mpr hfold), h⟩

theorem caseless_ofDay (op : Comparison) (day : Date) : (ofDay op day).caseless = ofDay op day := by
  unfold ofDay
  split <;> rfl

theorem TestOf.suits_caseless (h : TestOf field op value test) : Suits true test.caseless := by
  cases h with
  | day h =>
      rw [caseless_ofDay]
      exact suits_ofDay op _
  | equal => exact .regex
  | unequal => exact .not .regex
  | plain => exact .compares

-- Only behind the last day of all there is no timestamp that is not on the day.
theorem holds_ofDay_notEqual_null (day : Date) :
    (ofDay .notEqual day).holds .null = true ↔ day.next? ≠ none := by
  cases hnext : day.next? with
  | some next =>
      simp only [ofDay, hnext]
      rw [holds, holds_atLeast_null]
      simp
  | none =>
      simp only [ofDay, hnext, holds_before_null]
      simp

-- A regular expression for a literal finds no nulls, and a text up to case.
theorem holds_exactly_null : (regex (Regex.exactly value).caseless).holds .null = false := by
  rw [holds, readOperand_regex]
  rfl

theorem holds_exactly_string {s pattern : String} :
    (regex (Regex.exactly (.string pattern)).caseless).holds (.value (.string s)) =
      (Text.lower s == Text.lower pattern) := by
  rw [holds, readOperand_regex]
  exact Regex.isMatch_exactly (Text.lower pattern) s

section Agreement

variable (hplace : field.ComparesWith value place)
include hplace

theorem TestOf.holds_day_iff {day : Date} (hday : field.day? value = some day) :
    ((ofDay op day).holds place.stored = true ↔
      (if field.fold then place.foldCase else place).passes op value = true) ↔
      ¬ field.Strays op value place := by
  obtain ⟨-, rfl⟩ := FieldRef.day?_eq_some hday
  rw [FieldRef.Strays, hday]
  dsimp only
  rcases hplace with rfl | ⟨stored, rfl, hkind⟩
  · have hseen : (if field.fold then Datum.null.foldCase else .null).passes op (.date day) =
        false := by cases field.fold <;> rfl
    rw [hseen, Datum.stored]
    by_cases hop : op = .notEqual
    · subst hop
      simp [holds_ofDay_notEqual_null]
    · simp [holds_ofDay_null hop, hop]
  · obtain ⟨t, ht, hpasses⟩ : ∃ t, stored.stored = .datetime t ∧
        (if field.fold then (Datum.scalar stored).foldCase else .scalar stored).passes op
          (.date day) = op.holds (compare t.date day) := by
      rcases hkind with hdate | ⟨_, -, hdatetime⟩
      · obtain ⟨d, rfl⟩ := Value.eq_date_of_kind hdate
        exact ⟨.midnight d, rfl, by cases field.fold <;> rfl⟩
      · obtain ⟨t, rfl⟩ := Value.eq_datetime_of_kind hdatetime
        exact ⟨t, rfl, by cases field.fold <;> rfl⟩
    rw [hpasses, Datum.stored, ht, holds_ofDay]
    simp

variable (hday : field.day? value = none)
include hday

-- What a comparison is not made with by the day is of the literal's kind.
theorem eq_null_or_scalar :
    place = .null ∨ ∃ stored, place = .scalar stored ∧ stored.kind = value.kind := by
  refine hplace.imp_right ?_
  rintro ⟨stored, rfl, hkind | ⟨day, hsome, -⟩⟩
  · exact ⟨stored, rfl, hkind⟩
  · rw [hday] at hsome
    cases hsome

theorem holds_plain_iff (hstorable : value.Storable) :
    ((compares [(op, .value value)]).holds place.stored = true ↔ place.passes op value = true) ↔
      ¬ (op = .notEqual ∧ place.compare? value = none) := by
  have hcompare : place = .null ∨ ∃ stored, place = .scalar stored ∧
      stored.stored.compare? value.stored = stored.compare? value := by
    refine (eq_null_or_scalar hplace hday).imp_right ?_
    rintro ⟨stored, rfl, hkind⟩
    refine ⟨stored, rfl, Value.compare?_stored stored value ?_ ?_⟩ <;>
      · rw [hkind]
        rintro ⟨hfirst, hsecond⟩
        rw [hfirst] at hsecond
        cases hsecond
  by_cases hop : op = .notEqual
  · subst hop
    have hequal := holds_compares_value (show Comparison.equal ≠ .notEqual by decide) hstorable
      hcompare
    have hnot : (compares [(.notEqual, .value value)]).holds place.stored =
        !(compares [(.equal, .value value)]).holds place.stored := by
      simp only [holds, List.all_cons, List.all_nil, Bool.and_true, Operand.toJson,
        readOperand_valueJson value hstorable, Option.any_some, Stored.compares]
    rw [hnot, hequal, Datum.not_passes_equal_iff]
    simp
  · rw [holds_compares_value hop hstorable hcompare]
    simp [hop]

-- Only texts are put in lower case.
theorem foldCase_of_kind_ne (hstring : value.kind ≠ .string) : place.foldCase = place := by
  rcases eq_null_or_scalar hplace hday with rfl | ⟨stored, rfl, hkind⟩
  · rfl
  · rw [← hkind] at hstring
    cases stored <;> first | rfl | exact absurd rfl hstring

-- A regular expression for a literal that is no text finds nothing.
theorem holds_exactly_of_kind_ne (hstring : value.kind ≠ .string) :
    (regex (Regex.exactly value).caseless).holds place.stored = false := by
  have hregex : (regex (Regex.exactly value).caseless).holds place.stored =
      place.stored.isMatch (Regex.exactly value).caseless := by
    rw [holds, readOperand_regex]
    rfl
  rw [hregex]
  rcases eq_null_or_scalar hplace hday with rfl | ⟨stored, rfl, hkind⟩
  · rfl
  · rw [← hkind] at hstring
    cases stored <;> first | rfl | exact absurd rfl hstring

theorem holds_equal_iff :
    ((regex (Regex.exactly value).caseless).holds place.stored = true ↔
      place.foldCase.passes .equal value = true) ↔
      ¬ ((value.kind ≠ .string ∧ place.compare? value = some .eq) ∨ place.InOtherCase value) := by
  by_cases hstring : value.kind = .string
  · obtain ⟨pattern, rfl⟩ := Value.eq_string_of_kind hstring
    rcases eq_null_or_scalar hplace hday with rfl | ⟨stored, rfl, hkind⟩
    · simp [Datum.stored, holds_exactly_null, Datum.InOtherCase, Datum.foldCase, Datum.passes,
        Datum.compare?]
    · obtain ⟨s, rfl⟩ := Value.eq_string_of_kind hkind
      simp [holds_exactly_string, hstring, Datum.InOtherCase, Datum.stored, Value.stored,
        Datum.foldCase, Value.foldCase, Datum.passes, Datum.compare?, Value.compare?,
        Comparison.holds]
  · have hother : ¬ place.InOtherCase value := by
      rintro ⟨_, _, -, rfl, -⟩
      exact hstring rfl
    rw [foldCase_of_kind_ne hplace hday hstring, holds_exactly_of_kind_ne hplace hday hstring,
      Datum.passes]
    cases place.compare? value with
    | none => simp [hother]
    | some order => cases order <;> simp [hstring, hother, Comparison.holds]

theorem holds_unequal_iff :
    ((not (regex (Regex.exactly value).caseless)).holds place.stored = true ↔
      place.foldCase.passes .notEqual value = true) ↔
      ¬ (place.compare? value = none ∨
        (value.kind ≠ .string ∧ place.compare? value = some .eq) ∨ place.InOtherCase value) := by
  rw [holds]
  by_cases hstring : value.kind = .string
  · obtain ⟨pattern, rfl⟩ := Value.eq_string_of_kind hstring
    rcases eq_null_or_scalar hplace hday with rfl | ⟨stored, rfl, hkind⟩
    · simp [Datum.stored, holds_exactly_null, Datum.compare?, Datum.foldCase, Datum.passes]
    · obtain ⟨s, rfl⟩ := Value.eq_string_of_kind hkind
      simp [holds_exactly_string, hstring, Datum.InOtherCase, Datum.stored, Value.stored,
        Datum.foldCase, Value.foldCase, Datum.passes, Datum.compare?, Value.compare?,
        Comparison.holds, not_iff_not]
  · have hother : ¬ place.InOtherCase value := by
      rintro ⟨_, _, -, rfl, -⟩
      exact hstring rfl
    rw [foldCase_of_kind_ne hplace hday hstring, holds_exactly_of_kind_ne hplace hday hstring,
      Datum.passes]
    cases place.compare? value with
    | none => simp
    | some order => cases order <;> simp [hstring, hother, Comparison.holds]

end Agreement

-- The test that a comparison becomes says of a place what evaluation says, but where it strays.
theorem TestOf.holds_iff (h : TestOf field op value test) (hstorable : value.Storable)
    (hplace : field.ComparesWith value place) :
    (test.caseless.holds place.stored = true ↔
      (if field.fold then place.foldCase else place).passes op value = true) ↔
      ¬ field.Strays op value place := by
  cases h with
  | day hday =>
      rw [caseless_ofDay]
      exact holds_day_iff hplace hday
  | equal hday hfold hop =>
      subst hop
      rw [FieldRef.Strays, hday, hfold, if_pos rfl, caseless, holds_equal_iff hplace hday]
      simp
  | unequal hday hfold hop =>
      subst hop
      rw [FieldRef.Strays, hday, hfold, if_pos rfl, caseless, caseless,
        holds_unequal_iff hplace hday]
      simp
  | plain hday hfold =>
      rw [FieldRef.Strays, hday, hfold, if_neg Bool.false_ne_true, caseless,
        holds_plain_iff hplace hday hstorable]
      · simp
      all_goals exact nofun

-- A comparison of a member as a document asks for it, with any operator and by the day or not,
-- selects the records that evaluation lets pass, if a document can hold its literal; but inequality
-- also selects those that hold nothing there or no number, the last day of all aside, and on a folded
-- field texts are found in any case and nothing else is.
theorem compare_selects_iff_eval (coercer : Coercer) (hpath : field.path = names.map .member)
    (hne : names ≠ []) (hdots : ∀ name ∈ names, '.' ∉ name.toList) (hcoerce : field.coerce = false)
    (hstorable : value.Storable)
    (hselector : ofCondition false (.compare field op value) = .ok selector)
    (hdatum : datum.LiesBehind names place) (hplace : field.ComparesWith value place) :
    ((selector.caseless.holds datum.stored = true ↔
      (Condition.compare field op value).eval coercer datum = .ok true) ↔
      ¬ field.Strays op value place) ∧
    ((∀ name ∈ names.head?, name.toList.head? ≠ some '$') →
      selects selector.caseless.toJson datum.stored = selector.caseless.holds datum.stored) := by
  obtain ⟨test, htest, honField⟩ := ofCompare_eq_ok hselector
  obtain rfl : inField (".".intercalate names) test = selector :=
    Except.ok.inj ((onField_members hpath hne).symm.trans honField)
  rw [caseless]
  refine ⟨?_, fun hdollar => ?_⟩
  · have heval : (Condition.compare field op value).eval coercer datum =
        .ok ((if field.fold then place.foldCase else place).passes op value) := by
      rw [Condition.eval, FieldRef.read_of_stored hcoerce, hpath, hdatum.walk]
      rfl
    rw [holds_inField_members hne hdots hdatum, heval, Except.ok.injEq]
    exact htest.holds_iff hstorable hplace
  · have hname : (".".intercalate names).toList.head? ≠ some '$' := by
      cases names with
      | nil => exact absurd rfl hne
      | cons name rest =>
          intro hhead
          exact hdollar name rfl (head?_intercalate hhead)
    exact (Suits.inField hname htest.suits_caseless).toJson_eq_holds datum.stored

private def sentAt : FieldRef where
  path := [.member "sent", .member "at"]
  kind := .date
  dayOnly := true

private def lastDay : Date := ⟨262142, 12, 31, by decide⟩

private def unsent : Datum :=
  .record [("sent", .null)] []

-- Behind the last day of all there is no midnight, and its document is not a negation.
theorem lastDay_selects_no_unsent :
    ∃ selector, ofCondition false (.compare sentAt .notEqual (.date lastDay)) = .ok selector ∧
      selects selector.caseless.toJson unsent.stored = false := by
  have hlast : lastDay.next? = none := by decide +kernel
  have hselector : ofCondition false (.compare sentAt .notEqual (.date lastDay)) =
      .ok (inField "sent.at" (compares [before lastDay])) := by
    have hday : ofDay .notEqual lastDay = compares [before lastDay] := by
      simp only [ofDay, hlast]
    rw [← hday]
    rfl
  have hdatum : unsent.LiesBehind ["sent", "at"] .null := .member (.missing "at" [])
  obtain ⟨hagrees, hjson⟩ := compare_selects_iff_eval {}
    (show sentAt.path = ["sent", "at"].map .member from rfl) (List.cons_ne_nil _ _) (by decide) rfl
    (show (Value.date lastDay).Storable from trivial) hselector hdatum (.inl rfl)
  refine ⟨_, hselector, ?_⟩
  have hstays : ¬ sentAt.Strays .notEqual (.date lastDay) .null := fun h => h.2.2 hlast
  rw [hjson (by decide), Bool.eq_false_iff]
  intro hholds
  cases (hagrees.mpr hstays).mp hholds

private def copies : FieldRef where
  path := [.member "copies"]
  kind := .long

-- A record without copies passes no test of their number, and its document is still selected as
-- one of those with another number of them.
theorem unequal_selects_missing :
    ∃ selector, ofCondition false (.compare copies .notEqual (.long 2)) = .ok selector ∧
      selects selector.toJson (Datum.record [] []).stored = true ∧
      (Condition.compare copies .notEqual (.long 2)).eval {} (.record [] []) = .ok false :=
  ⟨_, rfl, rfl, rfl⟩

end Document.Selector

end Sieve

import Sieve.Datum.OfJson
import Sieve.Proofs.Coercer.Native
import Sieve.Proofs.Plan.Comparability
import Sieve.Proofs.Plan.Folding
import Sieve.Proofs.Plan.Testing
import Sieve.Proofs.Rule.RawValue

-- A rule that asks for the JSON scalar that a dynamic place was filled with.
namespace Sieve

variable {record : RecordType} {options : Options} {leaf : Rule} {c : Coercer} {declared : Kind}
  {fold : Bool} {raw : RawValue} {value literal : Value} {place : Place}

-- A boolean, a number or a text.
def Json.isScalar : Json → Bool
  | .bool _ | .number _ | .string _ => true
  | _ => false

theorem RawValue.read_of_isScalar {json : Json} (h : json.isScalar = true) :
    read json = ofJson json := by
  cases json with
  | number n => exact read_number n
  | bool b | string s => rfl
  | _ => cases h

theorem Json.exists_native {json : Json} (h : json.isScalar = true) :
    ∃ value, Datum.ofJson json = .scalar value ∧ Native (.ofJson json) value := by
  cases json with
  | bool b => exact ⟨_, rfl, .bool b⟩
  | string s => exact ⟨_, rfl, .text s⟩
  | number n =>
      rw [Datum.ofJson, Datum.ofNumber, RawValue.ofJson, RawValue.ofNumber]
      cases n.int64? with
      | some i => exact ⟨_, rfl, .int i⟩
      | none => exact ⟨_, rfl, .float _⟩
  | _ => cases h

-- What a dynamic place holds is turned into the declared kind before it is tested.
theorem Place.ask_dynamic {op : Operator} {values : List Value} {accepted : Bool}
    (htype : place.type = .dynamic) :
    place.ask c op declared fold values = .ok accepted ↔
      ∃ stored, c.coerceDatum place.datum declared = .ok stored ∧
        op.test.accepts values .dynamic (if fold then stored.foldCase else stored) = accepted := by
  have hdynamic : place.type.element = .dynamic := by rw [htype]; rfl
  rw [ask, Outcome.map_eq_ok, read, if_pos hdynamic, htype]
  constructor
  · rintro ⟨_, hread, haccepts⟩
    obtain ⟨stored, hstored, hfold⟩ := Outcome.bind_eq_ok.mp hread
    obtain rfl := Except.ok.inj hfold
    exact ⟨stored, Outcome.mapError_eq_ok.mp hstored, haccepts⟩
  · rintro ⟨stored, hstored, haccepts⟩
    exact ⟨_, Outcome.bind_eq_ok.mpr ⟨stored, Outcome.mapError_eq_ok.mpr hstored, rfl⟩, haccepts⟩

theorem Datum.passes_equal_string_of_ne {s t : String} (h : s ≠ t) :
    (scalar (.string s)).passes .equal (.string t) = false := by
  simp [passes, compare?, Value.compare?, Comparison.holds, h]

theorem Value.isNaN_foldCase (value : Value) : value.foldCase.isNaN = value.isNaN := by
  cases value <;> rfl

namespace Native

-- A place with the scalar of a rule is found equal to that once it can be read, if the two are not
-- texts of a double with different points.
theorem ask_equal (h : Native raw value) (htype : place.type = .dynamic)
    (hdatum : place.datum = .scalar value) (hliteral : c.single? declared fold raw = some literal)
    (hnan : literal.isNaN = false)
    (hpoint : declared = .string → ∀ x, raw = .float x →
      c.locale.decimal = '.' ∨ '.' ∉ (Decimal.renderFloat x).toList)
    {accepted : Bool} (hask : place.ask c .equal declared fold [literal] = .ok accepted) :
    accepted = true := by
  obtain ⟨stored, hstored, rfl⟩ := (Place.ask_dynamic htype).mp hask
  rw [hdatum] at hstored
  obtain ⟨token, htoken, hread⟩ := Coercer.single?_eq_some.mp hliteral
  obtain ⟨parsed, hparsed, rfl⟩ := Option.map_eq_some_iff.mp hread
  cases fold with
  | false => exact h.passes_equal htoken hparsed hnan hpoint hstored
  | true =>
      have hnan := parsed.isNaN_foldCase.symm.trans hnan
      exact Datum.passes_equal_foldCase (h.passes_equal htoken hparsed hnan hpoint hstored)

-- With different points they are different texts.
theorem ask_point {x : Float} (htype : place.type = .dynamic)
    (hdatum : place.datum = .scalar (.double x))
    (hliteral : c.single? .string fold (.float x) = some literal)
    (hdecimal : c.locale.decimal ≠ '.') (hpoint : '.' ∈ (Decimal.renderFloat x).toList) :
    place.ask c .equal .string fold [literal] = .ok false := by
  refine (Place.ask_dynamic htype).mpr ⟨.scalar (.string (Decimal.renderFloat x)), ?_, ?_⟩
  · rw [hdatum]
    rfl
  obtain ⟨token, htoken, hread⟩ := Coercer.single?_eq_some.mp hliteral
  obtain rfl : c.locale.renderFloat x = token := List.singleton_inj.mp htoken
  obtain rfl := Option.some.inj hread
  have hne := Locale.foldCase_renderFloat_ne hdecimal hpoint fold
  cases fold with
  | false => exact Datum.passes_equal_string_of_ne hne
  | true => exact Datum.passes_equal_string_of_ne hne

end Native

-- The places that a path to dynamic places comes to.
section Places

variable {r : Resolution} (hdynamic : r.type.element = .dynamic)
include hdynamic

theorem Resolution.type_of_mem_opened {datum : Datum}
    (h : place ∈ (r.places datum).flatMap Place.opened) : place.type = .dynamic := by
  obtain ⟨outer, houter, hmem⟩ := List.mem_flatMap.mp h
  obtain ⟨element, -, rfl⟩ := List.mem_map.mp houter
  have hscalar : Test.isScalar r.type.element = true := by rw [hdynamic]; rfl
  exact (Place.type_of_mem_opened hscalar hmem).trans hdynamic

-- In a record with nothing but a double in such a place, the double is not found where it is written
-- with another point.
theorem Resolution.exists_missed {x : Float}
    (hliteral : c.single? .string fold (.float x) = some literal)
    (hdecimal : c.locale.decimal ≠ '.') (hpoint : '.' ∈ (Decimal.renderFloat x).toList) :
    ∃ holder, ∃ place ∈ Operator.equal.targets (r.places holder),
      place.datum = .scalar (.double x) ∧
      (Operator.equal.targets (r.places holder)).anyM
        (Place.ask c .equal .string fold [literal]) = .ok false := by
  have hscalar : Test.isScalar r.type.element = true := by rw [hdynamic]; rfl
  obtain ⟨holder, path, htargets⟩ :=
    exists_targets_alone (show Operator.equal.test ≠ .isEmpty by decide) hscalar
      (.scalar (.double x))
  refine ⟨holder, ⟨_, path, .scalar (.double x)⟩, by rw [htargets]; exact .head _, rfl, ?_⟩
  rw [htargets, Outcome.anyM_singleton]
  exact Native.ask_point hdynamic rfl hliteral hdecimal hpoint

end Places

namespace Filter

-- A rule for the JSON scalar in a dynamic place lets the record pass whenever the record can be
-- evaluated, in every locale and as every kind, unless the scalar reads as a double that is no
-- number. The one exception is a double written with a point that is compared as a text in a locale
-- with a comma: for this there are records that the rule misses.
theorem native_accepted_iff {field : String} {r : Resolution} {filter : Filter} {json : Json}
    (hleaf : leaf.isLeaf = true) (hfield : leaf.field = some field)
    (hdeclared : leaf.type.bind Kind.read = some declared)
    (hname : leaf.operator = some Operator.equal.name)
    (hbuiltin : options.operator? Operator.equal.name = none)
    (hscalar : json.isScalar = true) (hvalue : leaf.value = some raw)
    (hraw : raw = .read json ∨ raw = .ofJson json)
    (hresolve : Resolution.resolve record options.toSettings field = .ok r)
    (hdynamic : r.type.element = .dynamic) (h : build record options (some leaf) = .ok filter) :
    ∃ literal, options.coercer.single? declared (options.folds declared) raw = some literal ∧
      (literal.isNaN = false →
        ((∀ datum, ∀ place ∈ (record.reached field datum).flatMap Place.opened,
            place.datum = .ofJson json →
            ∀ accepted, filter.evaluate datum = .ok accepted → accepted = true) ↔
          (declared = .string → ∀ x, raw = .float x →
            options.locale.decimal = '.' ∨ '.' ∉ (Decimal.renderFloat x).toList))) := by
  obtain ⟨literal, hliteral, heval⟩ :=
    evaluate_compare hleaf hfield hdeclared hname hbuiltin (by decide) rfl hresolve h
  rw [hvalue, Option.bind_some] at hliteral
  refine ⟨literal, hliteral, fun hnan => ?_⟩
  obtain rfl : raw = .ofJson json :=
    hraw.elim (fun hread => hread.trans (RawValue.read_of_isScalar hscalar)) id
  obtain ⟨value, hdatum, hnative⟩ := Json.exists_native hscalar
  have htargets (places : List Place) :
      Operator.equal.targets places = places.flatMap Place.opened := rfl
  simp only [heval, Resolution.reached_eq_places hresolve, ← htargets, hdatum]
  constructor
  · intro hall hstring x hx
    by_contra hother
    rw [not_or, not_not] at hother
    subst hstring
    rw [hx] at hliteral hnative
    obtain ⟨⟩ := hnative
    obtain ⟨holder, place, hplace, hstored, hmissed⟩ :=
      Resolution.exists_missed hdynamic hliteral hother.1 hother.2
    cases hall holder place hplace hstored false hmissed
  · intro hpoint datum place hplace hstored accepted haccepted
    by_contra hrejected
    rw [Bool.not_eq_true] at hrejected
    subst hrejected
    have hask := Outcome.anyM_eq_false_iff.mp haccepted place hplace
    have htype := Resolution.type_of_mem_opened hdynamic hplace
    cases hnative.ask_equal htype hstored hliteral hnan hpoint hask

private def prices : RecordType := ⟨[⟨"Article", [("price", .dynamic)], none⟩], 0⟩

private def german : Options := { locale := .deDE }

private def oneAndAHalf : Json := .number (.double 1.5)

private def costing (type : String) : Rule :=
  .leaf "price" "equal" type (some (.read oneAndAHalf))

private def article : Datum := .record [("price", .ofJson oneAndAHalf)] []

private def priceOf : Resolution where
  hops := []
  path := [.member "price"]
  type := .dynamic
  nullable := true

-- As a text the price of the rule has a comma, and that of the record a point.
theorem price_with_comma_missed :
    (build prices german (some (costing "string"))).map (·.evaluate article) = .ok (.ok false) := by
  decide +kernel

-- As a number it has neither.
theorem price_as_number_found :
    ∃ filter, build prices german (some (costing "double")) = .ok filter ∧
      filter.evaluate article = .ok true := by
  have hrun : (build prices german (some (costing "double"))).map
      (fun filter => (filter.evaluate article).isOk) = .ok true := by
    decide +kernel
  obtain ⟨filter, h, hok⟩ := Outcome.map_eq_ok.mp hrun
  obtain ⟨accepted, haccepted⟩ := Outcome.exists_ok_of_isOk hok
  have hdouble : (costing "double").type.bind Kind.read = some .double := by decide +kernel
  have hresolve : Resolution.resolve prices german.toSettings "price" = .ok priceOf := by
    decide +kernel
  obtain ⟨literal, hliteral, hiff⟩ := native_accepted_iff rfl rfl hdouble
    (show (costing "double").operator = some Operator.equal.name from rfl) rfl
    (show oneAndAHalf.isScalar = true from rfl) rfl (.inl rfl) hresolve rfl h
  have hread : german.coercer.single? .double (german.folds .double) (.read oneAndAHalf) =
      some (.double 1.5) := by
    decide +kernel
  obtain rfl : Value.double 1.5 = literal := Option.some.inj (hread.symm.trans hliteral)
  let place : Place := ⟨.dynamic, priceOf.path, .ofJson oneAndAHalf⟩
  have hplace : place ∈ (prices.reached "price" article).flatMap Place.opened := by
    rw [Resolution.reached_eq_places hresolve]
    exact .head _
  have hfound := (hiff (by decide +kernel)).mpr nofun article place hplace rfl accepted haccepted
  exact ⟨filter, h, hfound ▸ haccepted⟩

end Filter

end Sieve

import Sieve.Proofs.Plan.Coherence
import Sieve.Proofs.Value.Widths

-- What a comparison of an integer with a double comes to, alone and in a rule.
namespace Sieve

variable {record : RecordType} {options : Options} {leaf : Rule} {op : Operator} {field : String}

namespace Datum

variable {x : Float} {n : Int64}

theorem passes_long_double (hx : x.isFinite = true) (comparison : Comparison) :
    (scalar (.long n)).passes comparison (.double x) =
      comparison.holds (compare (Double.rounded n.toInt) (Double.toRat x)) := by
  rw [passes, compare?, Value.compare?_long_double n hx]

theorem passes_double_long (hx : x.isFinite = true) (comparison : Comparison) :
    (scalar (.double x)).passes comparison (.long n) =
      comparison.holds (compare (Double.toRat x) (Double.rounded n.toInt)) := by
  rw [passes, compare?, Value.compare?_double_long n hx]

theorem passes_equal_long_double :
    (scalar (.long n)).passes .equal (.double x) = true ↔
      x.isFinite = true ∧ Double.rounded n.toInt = Double.toRat x := by
  rw [← Value.compare?_long_double_eq_iff, passes, compare?]
  rcases (Value.long n).compare? (.double x) with _ | _ | _ | _ <;> decide

end Datum

namespace Filter

-- A leaf that compares the one scalar behind its path holds what the record has there against its
-- literal.
theorem evaluate_compare_scalar {comparison : Comparison} {declared kind : Kind} {nullable : Bool}
    {r : Resolution} {filter : Filter} (hleaf : leaf.isLeaf = true)
    (hfield : leaf.field = some field) (hdeclared : leaf.type.bind Kind.read = some declared)
    (hname : leaf.operator = some op.name) (hbuiltin : options.operator? op.name = none)
    (hop : op ∈ Operator.comparing) (htest : op.test = .compare comparison)
    (hresolve : Resolution.resolve record options.toSettings field = .ok r) (hhops : r.hops = [])
    (htype : r.type = .scalar kind nullable) (h : build record options (some leaf) = .ok filter) :
    ∃ literal, leaf.value.bind (options.coercer.single? declared (options.folds declared)) =
        some literal ∧
      ∀ datum, filter.evaluate datum =
        .ok ((if options.folds declared then (datum.walk r.path).foldCase
          else datum.walk r.path).passes comparison literal) := by
  obtain ⟨literal, hliteral, heval⟩ :=
    evaluate_compare hleaf hfield hdeclared hname hbuiltin hop htest hresolve h
  refine ⟨literal, hliteral, fun datum => ?_⟩
  rw [heval, Operator.targets, if_neg (Operator.ne_of_mem_comparing hop).2,
    Resolution.anyM_ask_scalar hhops htype, htest]
  rfl

end Filter

-- An integer is held against a double through the double nearest to it, which is the integer itself
-- up to 53 binary digits. So the answer is the exact one, but for integers that are no doubles: these
-- equal the nearest double. A rule with `equal` and a double lets through the integers that the
-- double is nearest to, and no others.
theorem widths_compare_through_nearest :
    (∀ n : Int64,
      (∀ y : Float, y.isFinite = true →
        |(n.toInt : ℚ) - Double.rounded n.toInt| ≤ |(n.toInt : ℚ) - Double.toRat y|) ∧
      (n.toInt.natAbs ≤ 2 ^ 53 → Double.rounded n.toInt = n.toInt) ∧
      ∀ x : Float, x.isFinite = true → ∀ comparison : Comparison,
        (Datum.scalar (.long n)).passes comparison (.double x) =
            comparison.holds (compare (Double.rounded n.toInt) (Double.toRat x)) ∧
          (Datum.scalar (.double x)).passes comparison (.long n) =
            comparison.holds (compare (Double.toRat x) (Double.rounded n.toInt)) ∧
          (Double.toRat x ≠ Double.rounded n.toInt ∨ Double.rounded n.toInt = n.toInt →
            (Datum.scalar (.long n)).passes comparison (.double x) =
                comparison.holds (compare (n.toInt : ℚ) (Double.toRat x)) ∧
              (Datum.scalar (.double x)).passes comparison (.long n) =
                comparison.holds (compare (Double.toRat x) (n.toInt : ℚ)))) ∧
    ∀ (record : RecordType) (options : Options) (leaf : Rule) (field : String) (r : Resolution)
      (nullable : Bool) (filter : Filter), leaf.isLeaf = true → leaf.field = some field →
      leaf.type.bind Kind.read = some .double → leaf.operator = some Operator.equal.name →
      options.operator? Operator.equal.name = none →
      Resolution.resolve record options.toSettings field = .ok r → r.hops = [] →
      r.type = .scalar .long nullable → Filter.build record options (some leaf) = .ok filter →
      ∃ x : Float, leaf.value.bind (options.coercer.single? .double false) = some (.double x) ∧
        ∀ (datum : Datum) (n : Int64), datum.walk r.path = .scalar (.long n) →
          ∃ passed, filter.evaluate datum = .ok passed ∧
            (passed = true ↔ x.isFinite = true ∧ Double.rounded n.toInt = Double.toRat x) := by
  refine ⟨fun n => ?_, ?_⟩
  · have hn : n.toInt.natAbs ≤ 2 ^ 64 := (Int64.natAbs_toInt_le n).trans (by decide)
    refine ⟨fun y => Double.nearest_rounded hn, Double.rounded_eq, fun x hx comparison => ?_⟩
    have hlong := Datum.passes_long_double (n := n) hx comparison
    have hdouble := Datum.passes_double_long (n := n) hx comparison
    refine ⟨hlong, hdouble, fun hexact => ?_⟩
    have hcompare := Double.compare_rounded hn hx hexact
    have hswap := congrArg Ordering.swap hcompare
    rw [← Std.OrientedCmp.eq_swap, ← Std.OrientedCmp.eq_swap] at hswap
    exact ⟨hlong.trans (congrArg comparison.holds hcompare),
      hdouble.trans (congrArg comparison.holds hswap)⟩
  · intro record options leaf field r nullable filter hleaf hfield hdeclared hname hbuiltin hresolve
      hhops htype h
    obtain ⟨literal, hliteral, heval⟩ := Filter.evaluate_compare_scalar hleaf hfield hdeclared hname
      hbuiltin (by decide) rfl hresolve hhops htype h
    obtain ⟨raw, -, hread⟩ := Option.bind_eq_some_iff.mp hliteral
    obtain ⟨token, -, htoken⟩ := Coercer.single?_eq_some.mp hread
    obtain ⟨x, rfl⟩ : ∃ x, literal = .double x := by
      have hkind := Coercer.kind_of_literal? htoken
      cases literal <;> first | exact ⟨_, rfl⟩ | cases hkind
    refine ⟨x, hliteral, fun datum n hdatum => ⟨_, heval datum, ?_⟩⟩
    rw [hdatum]
    exact Datum.passes_equal_long_double

private def meters : RecordType :=
  ⟨[⟨"Meter", [("serial", .scalar .long false)], none⟩], 0⟩

private def replaced : Rule := .leaf "serial" "equal" "double" (some (.int 9007199254740992))

private def meter (serial : Int64) : Datum :=
  .record [("serial", .scalar (.long serial))] []

private def serialOf : Resolution where
  hops := []
  path := [.member "serial"]
  type := .scalar .long false
  nullable := false

private def replacedSerial : Float := Float.ofInt 9007199254740992

private theorem toRat_replacedSerial : Double.toRat replacedSerial = 9007199254740992 := by
  exact_mod_cast Double.rounded_eq (n := 9007199254740992) (by decide)

-- The first integer that is no double equals the double before it, and a rule for the one serial
-- number lets the other through.
theorem replaced_accepts_both_neighbours :
    ((Datum.scalar (.long 9007199254740993)).passes .equal (.double replacedSerial) = true ∧
      compare (9007199254740993 : ℚ) (Double.toRat replacedSerial) = .gt) ∧
    (Filter.build meters {} (some replaced)).map (fun filter =>
      (filter.evaluate (meter 9007199254740992), filter.evaluate (meter 9007199254740993))) =
      .ok (.ok true, .ok true) := by
  refine ⟨⟨by decide +kernel, ?_⟩, by decide +kernel⟩
  rw [toRat_replacedSerial, compare_gt_iff_gt]
  norm_num

theorem replaced_accepts_nearest :
    (Datum.scalar (.long 9007199254740991)).passes .less (.double replacedSerial) = true ∧
    ∃ filter, Filter.build meters {} (some replaced) = .ok filter ∧
      filter.evaluate (meter 9007199254740993) = .ok true ∧
      filter.evaluate (meter 9007199254740991) = .ok false := by
  obtain ⟨hvalues, hrules⟩ := widths_compare_through_nearest
  have hfinite : replacedSerial.isFinite = true := Double.isFinite_ofInt (by decide)
  have hbelow : Double.rounded 9007199254740991 = 9007199254740991 := by
    exact_mod_cast Double.rounded_eq (n := 9007199254740991) (by decide)
  obtain ⟨filter, hfilter⟩ := Outcome.exists_ok_of_isOk
    (show (Filter.build meters {} (some replaced)).isOk = true by decide +kernel)
  have hdouble : replaced.type.bind Kind.read = some .double := by decide +kernel
  have hresolve : Resolution.resolve meters ({} : Options).toSettings "serial" = .ok serialOf := by
    decide +kernel
  obtain ⟨x, hliteral, heval⟩ := hrules meters {} replaced "serial" serialOf false filter rfl rfl
    hdouble rfl rfl hresolve rfl rfl hfilter
  have hread : replaced.value.bind (({} : Options).coercer.single? .double false) =
      some (.double replacedSerial) := by
    decide +kernel
  obtain rfl : replacedSerial = x := Value.double.inj (Option.some.inj (hread.symm.trans hliteral))
  refine ⟨?_, filter, hfilter, ?_, ?_⟩
  · obtain ⟨-, hexact, hcompare⟩ := hvalues 9007199254740991
    obtain ⟨-, -, hboth⟩ := hcompare replacedSerial hfinite .less
    rw [(hboth (.inr (hexact (by decide)))).1, toRat_replacedSerial, compare_lt_iff_lt.mpr]
    · rfl
    · exact_mod_cast (by decide : (9007199254740991 : Int64).toInt < 9007199254740992)
  · obtain ⟨passed, hpassed, hiff⟩ := heval (meter 9007199254740993) 9007199254740993 rfl
    have hsame : Float.ofInt 9007199254740993 = replacedSerial := by decide +kernel
    rw [hpassed, hiff.mpr ⟨hfinite, congrArg Double.toRat hsame⟩]
  · obtain ⟨passed, hpassed, hiff⟩ := heval (meter 9007199254740991) 9007199254740991 rfl
    have hother : passed ≠ true := by
      intro hpassed
      have hequal : Double.rounded 9007199254740991 = _ := (hiff.mp hpassed).2
      rw [hbelow, toRat_replacedSerial] at hequal
      norm_num at hequal
    rw [hpassed, Bool.eq_false_iff.mpr hother]

end Sieve

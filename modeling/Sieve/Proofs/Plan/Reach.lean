import Sieve.Proofs.Operator.Asking
import Sieve.Proofs.Plan.Leaf
import Sieve.Proofs.Plan.Verdict

-- A leaf asks the places that its path comes to in a record.
namespace Sieve

variable {record : RecordType} {options : Options} {leaf : Rule} {op : Operator}

theorem Operator.targets_eq_flatMap (op : Operator) (places : List Place) :
    op.targets places = places.flatMap fun place => op.targets [place] := by
  by_cases hempty : op.test = .isEmpty
  · simp [targets, hempty]
  · simp [targets, hempty]

namespace LeafPlan

variable {plan : LeafPlan} {values : List Value}

-- Only texts are folded.
theorem string_of_fold (hplan : Plan.ofLeaf record options leaf = .ok plan)
    (h : plan.fold = true) : plan.declared = .string := by
  obtain ⟨-, -, -, -, -, -, hfold⟩ := Plan.ofLeaf_eq_ok hplan
  rw [hfold, Options.folds, Bool.and_eq_true, beq_iff_eq] at h
  exact h.1

theorem misuse?_of_ofLeaf (hplan : Plan.ofLeaf record options leaf = .ok plan)
    (hbinding : plan.binding = .builtin op) :
    op.test.misuse? plan.resolution.type plan.declared = none := by
  obtain ⟨-, -, -, -, -, htarget, -⟩ := Plan.ofLeaf_eq_ok hplan
  rw [hbinding] at htarget
  exact Plan.checkTarget_eq_ok htarget

-- The values that a leaf comes to are as many as its test takes.
theorem takes_of_values (hplan : Plan.ofLeaf record options leaf = .ok plan)
    (hbinding : plan.binding = .builtin op)
    (hvalues : plan.values op options.toSettings options.coercer leaf.value = .ok values) :
    op.test.Takes values := by
  obtain ⟨harity, literals, hread, hfolded⟩ := values_eq_ok.mp hvalues
  refine Test.takes_of_arity ?_ (kind_of_values hvalues) (misuse?_of_ofLeaf hplan hbinding)
  have hlength : values.length = (op.tokens options.locale leaf.value).length := by
    rw [← Coercer.length_of_coerceAll hread, ← hfolded]
    split <;> simp
  rw [hlength]
  exact harity

-- The condition of a leaf asks one place after the other that its resolution leads to.
theorem eval_positive_of_takes (hpositive : op.isNegated = false) (hnull : op.test ≠ .isNull)
    (htakes : op.test.Takes values)
    (hmisuse : op.test.misuse? plan.resolution.type plan.declared = none)
    (hfold : plan.fold = true → plan.declared = .string) (coercer : Coercer) (datum : Datum) :
    (plan.positive op.test values).eval coercer datum =
      (op.targets (plan.resolution.places datum)).anyM
        (Place.ask coercer op plan.declared plan.fold values) := by
  rw [positive, Operator.targets_eq_flatMap, Outcome.anyM_flatMap, Resolution.places,
    Outcome.anyM_map, Resolution.hopRefs, Condition.eval_quantify]
  exact Outcome.anyM_congr fun element _ =>
    Resolution.eval_build hpositive hnull htakes hmisuse hfold element

theorem eval_positive (hplan : Plan.ofLeaf record options leaf = .ok plan)
    (hbinding : plan.binding = .builtin op) (hpositive : op.isNegated = false)
    (hnull : op.test ≠ .isNull)
    (hvalues : plan.values op options.toSettings options.coercer leaf.value = .ok values)
    (datum : Datum) :
    (plan.positive op.test values).eval options.coercer datum =
      (op.targets (plan.resolution.places datum)).anyM
        (Place.ask options.coercer op plan.declared plan.fold values) :=
  eval_positive_of_takes hpositive hnull (takes_of_values hplan hbinding hvalues)
    (misuse?_of_ofLeaf hplan hbinding) (string_of_fold hplan) options.coercer datum

end LeafPlan

namespace Filter

-- A leaf with a positive operator comes to what the places that its path comes to in a record
-- come to, asked in order up to the first that passes or cannot be read.
theorem evaluate_eq_anyM_reached {field : String} {filter : Filter} (hleaf : leaf.isLeaf = true)
    (hfield : leaf.field = some field) (hname : leaf.operator = some op.name)
    (hbuiltin : options.operator? op.name = none) (hpositive : op.isNegated = false)
    (hnull : op ≠ .isNull) (h : build record options (some leaf) = .ok filter) :
    ∃ declared literals, leaf.type.bind Kind.read = some declared ∧
      options.coercer.coerceAll declared op.name field (op.tokens options.locale leaf.value) =
        .ok literals ∧
      ∀ datum, filter.evaluate datum =
        (op.targets (record.reached field datum)).anyM
          (Place.ask options.coercer op declared (options.folds declared)
            (if options.folds declared then literals.map Value.foldCase else literals)) := by
  obtain ⟨hcompile, hcoercer⟩ := build_eq_ok.mp h
  obtain ⟨plan, values, hplan, hvalues, hcondition⟩ :=
    (compile_builtin_eq_ok hleaf hname hbuiltin).mp hcompile
  rw [hpositive, if_neg Bool.false_ne_true] at hcondition
  obtain ⟨hplanField, hdeclared, -, hresolve, -, -, hfold⟩ := Plan.ofLeaf_eq_ok hplan
  obtain rfl : field = plan.field := Option.some.inj (hfield.symm.trans hplanField)
  have htest : op.test ≠ .isNull := by
    revert hpositive hnull
    cases op <;> decide
  have heval := LeafPlan.eval_positive hplan (Plan.binding_of_ofLeaf hname hbuiltin hplan)
    hpositive htest hvalues
  obtain ⟨-, literals, hliterals, rfl⟩ := LeafPlan.values_eq_ok.mp hvalues
  refine ⟨plan.declared, literals, hdeclared, hliterals, fun datum => ?_⟩
  rw [evaluate, hcoercer, ← hcondition, heval, hfold, Resolution.reached_eq_places hresolve]

private def ledgers : RecordType :=
  ⟨[⟨"Ledger", [("pages", .list (.list (.object 1)))], none⟩,
    ⟨"Page", [("next", .object 1)], some ("Sums", .map (.list .dynamic))⟩], 0⟩

private def withSums : Options := { useIndexer := true, indexerName := "Sums" }

private def overFive : Rule :=
  .leaf "pages.next.Sums.paid.eur" "greater" "integer" (some (.int 5))

private def page (sums : List Datum) : Datum :=
  .record [("next", .record [] [("paid", .map [("eur", .list sums)])])] []

private def torn : Datum :=
  .record [("pages", .list [
    .list [page [.scalar (.long 3), .scalar (.string "4")], .record [("next", .null)] []],
    .scalar (.string "lost"),
    .list [page [.scalar (.string "x"), .scalar (.long 9)]]])] []

-- Behind lists of lists, an indexer and a mapping: a page without a next one and a page that is no
-- list are passed over, and the sum that is no number comes before the one that would pass.
theorem overFive_stops_at_torn_sum :
    ∃ filter, build ledgers withSums (some overFive) = .ok filter ∧
      filter.evaluate torn = .error ⟨"greater", "it", .integer, "x"⟩ := by
  obtain ⟨filter, h⟩ := Outcome.exists_ok_of_isOk
    (show (build ledgers withSums (some overFive)).isOk = true by decide +kernel)
  obtain ⟨declared, literals, hdeclared, hliterals, heval⟩ :=
    evaluate_eq_anyM_reached rfl rfl (show overFive.operator = some Operator.greater.name from rfl)
      rfl rfl (by decide) h
  have hinteger : overFive.type.bind Kind.read = some .integer := by decide +kernel
  obtain rfl : Kind.integer = declared := Option.some.inj (hinteger.symm.trans hdeclared)
  have hfive : withSums.coercer.coerceAll .integer Operator.greater.name
      "pages.next.Sums.paid.eur" (Operator.greater.tokens withSums.locale overFive.value) =
      .ok [.integer 5] := by decide +kernel
  obtain rfl : [Value.integer 5] = literals := Except.ok.inj (hfive.symm.trans hliterals)
  exact ⟨filter, h, (heval torn).trans (by decide +kernel)⟩

end Filter

end Sieve

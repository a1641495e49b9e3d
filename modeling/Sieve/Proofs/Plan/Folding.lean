import Sieve.Proofs.Operator.Folding
import Sieve.Proofs.Plan.Reach

-- The same leaf with texts compared exactly and in lower case: when it accepts no more records
-- exactly.
namespace Sieve

variable {record : RecordType} {options : Options} {leaf : Rule} {op : Operator}

namespace Plan

theorem ofLeaf_caseSensitive (caseSensitive : Bool) :
    ofLeaf record { options with caseSensitive } leaf =
      (ofLeaf record options leaf).map fun plan =>
        { plan with fold := plan.declared == .string && !caseSensitive } := by
  have hresolve (field : String) :
      Resolution.resolve record { options.toSettings with caseSensitive } field =
        Resolution.resolve record options.toSettings field :=
    Resolution.resolve_congr (by rfl) (by rfl) field
  simp only [ofLeaf, Outcome.map_bind, hresolve]
  rfl

end Plan

theorem Coercer.coerceAll_string (c : Coercer) (operator field : String) (tokens : List String) :
    c.coerceAll .string operator field tokens = .ok (tokens.map .string) := by
  induction tokens with
  | nil => rfl
  | cons token rest ih =>
      rw [coerceAll, ih]
      rfl

-- The elements of a collection, or the place itself, where a text stands alone.
theorem Operator.targets_alone {type : FieldType} (hempty : op.test ≠ .isEmpty)
    (hscalar : Test.isScalar type.element = true) (path : FieldPath) (datum : Datum) :
    ∃ path', op.targets [⟨type, path, if type.isCollection then .list [datum] else datum⟩] =
      [⟨type.element, path', datum⟩] := by
  rw [targets, if_neg hempty, List.flatMap_singleton, Place.opened]
  cases type with
  | list inner =>
      refine ⟨[], ?_⟩
      cases inner with
      | scalar kind nullable => rfl
      | dynamic => rfl
      | _ => cases hscalar
  | scalar kind nullable => exact ⟨path, rfl⟩
  | dynamic => exact ⟨path, rfl⟩
  | _ => cases hscalar

-- There is a record in which a path comes to a single given datum.
theorem Resolution.exists_targets_alone {r : Resolution} (hempty : op.test ≠ .isEmpty)
    (hscalar : Test.isScalar r.type.element = true) (datum : Datum) :
    ∃ holder path, op.targets (r.places holder) = [⟨r.type.element, path, datum⟩] := by
  obtain ⟨path, htargets⟩ := Operator.targets_alone hempty hscalar r.path datum
  refine ⟨((if r.type.isCollection then .list [datum] else datum).under r.path).within r.hops, path,
    ?_⟩
  rw [places_within, htargets]

theorem Resolution.exists_asks_text {r : Resolution} (hempty : op.test ≠ .isEmpty)
    (hscalar : Test.isScalar r.type.element = true) (s : String) :
    ∃ datum, ∀ coercer fold values,
      (op.targets (r.places datum)).anyM (Place.ask coercer op .string fold values) =
        .ok (op.test.accepts values r.type.element
          (.scalar (.string (if fold then Text.lower s else s)))) := by
  obtain ⟨datum, path, htargets⟩ := exists_targets_alone hempty hscalar (.scalar (.string s))
  refine ⟨datum, fun coercer fold values => ?_⟩
  rw [htargets, Outcome.anyM_singleton, Place.ask_text]

-- The operators that a text passes by what it has in common with a literal.
def Operator.matching : List Operator :=
  [.equal, .oneOf, .beginsWith, .contains, .endsWith]

theorem Operator.test_of_mem_matching (h : op ∈ matching) :
    op.isNegated = false ∧ op.test ≠ .isNull ∧ op.test ≠ .isEmpty ∧
      (op.test = .compare .equal ∨ op.test = .oneOf ∨ ∃ text, op.test = .text text) := by
  revert h
  cases op <;> simp [matching, isNegated, positive?, test]

-- The places that a path comes to pass a test in lower case wherever they pass it exactly, if and
-- only if the literals are settled.
theorem Resolution.folded_of_exact_iff_settled {r : Resolution} {values : List Value}
    (hop : op ∈ Operator.matching) (hscalar : Test.isScalar r.type.element = true)
    (coercer : Coercer) :
    (∀ datum,
      (op.targets (r.places datum)).anyM (Place.ask coercer op .string false values) = .ok true →
      (op.targets (r.places datum)).anyM
        (Place.ask coercer op .string true (values.map Value.foldCase)) = .ok true) ↔
      op.test.Settled values := by
  obtain ⟨-, -, hempty, htest⟩ := Operator.test_of_mem_matching hop
  constructor
  · intro hfolded text pattern htext hpattern
    refine TextTest.stable_iff.mpr fun s hs => ?_
    obtain ⟨datum, hask⟩ := exists_asks_text hempty hscalar s
    have hkept := hfolded datum
    rw [hask, hask, htext, hpattern] at hkept
    exact Except.ok.inj (hkept (congrArg Except.ok hs))
  · intro hsettled datum haccepts
    exact Outcome.anyM_mono (fun place _ b hask => Place.ask_folded htest hsettled hask) haccepts

namespace Filter

-- A leaf on texts whose plan can be made and that has as many literals as its operator takes
-- becomes a filter, which asks the places of the plan for the literals.
theorem exists_build_of_plan {plan : LeafPlan} {literals : List Value}
    (hplan : Plan.ofLeaf record options leaf = .ok plan) (hstring : plan.declared = .string)
    (hleaf : leaf.isLeaf = true) (hname : leaf.operator = some op.name)
    (hbuiltin : options.operator? op.name = none) (hop : op ∈ Operator.matching)
    (harity : op.test.arity.accepts (op.tokens options.locale leaf.value).length = true)
    (hliterals : literals = (op.tokens options.locale leaf.value).map .string) :
    ∃ filter, build record options (some leaf) = .ok filter ∧
      ∀ datum, filter.evaluate datum = (op.targets (plan.resolution.places datum)).anyM
        (Place.ask options.coercer op .string plan.fold
          (if plan.fold then literals.map Value.foldCase else literals)) := by
  obtain ⟨hpositive, hnull, -⟩ := Operator.test_of_mem_matching hop
  have hvalues : plan.values op options.toSettings options.coercer leaf.value =
      .ok (if plan.fold then literals.map Value.foldCase else literals) := by
    refine LeafPlan.values_eq_ok.mpr ⟨harity, literals, ?_, rfl⟩
    rw [hstring, Coercer.coerceAll_string, hliterals]
  have hcompile := (compile_builtin_eq_ok hleaf hname hbuiltin).mpr ⟨plan, _, hplan, hvalues, rfl⟩
  rw [hpositive, if_neg Bool.false_ne_true] at hcompile
  refine ⟨⟨_, options.coercer⟩, build_eq_ok.mpr ⟨hcompile, rfl⟩, fun datum => ?_⟩
  rw [← hstring]
  exact LeafPlan.eval_positive hplan (Plan.binding_of_ofLeaf hname hbuiltin hplan) hpositive hnull
    hvalues datum

-- A leaf on texts can be compiled in lower case wherever it can exactly. Of every record that the
-- exact filter accepts the other one does too, if and only if no pattern of the leaf loses the
-- lower case of a capital sigma to the texts around it.
theorem accepted_folded_iff_settled {exact : Filter} (hleaf : leaf.isLeaf = true)
    (hname : leaf.operator = some op.name) (hbuiltin : options.operator? op.name = none)
    (hop : op ∈ Operator.matching) (hstring : leaf.type.bind Kind.read = some .string)
    (hexact : options.caseSensitive = true) (h : build record options (some leaf) = .ok exact) :
    ∃ folded, build record { options with caseSensitive := false } (some leaf) = .ok folded ∧
      ((∀ datum, exact.evaluate datum = .ok true → folded.evaluate datum = .ok true) ↔
        op.test.Settled ((op.tokens options.locale leaf.value).map .string)) := by
  obtain ⟨plan, values, hplan, hvalues, -⟩ :=
    (compile_builtin_eq_ok hleaf hname hbuiltin).mp (build_eq_ok.mp h).1
  obtain ⟨harity, -⟩ := LeafPlan.values_eq_ok.mp hvalues
  obtain ⟨-, hdeclared, -, -, -, htarget, hfold⟩ := Plan.ofLeaf_eq_ok hplan
  have hdeclared : plan.declared = .string := Option.some.inj (hdeclared.symm.trans hstring)
  have hfold : plan.fold = false := by
    rw [hfold, Options.folds, hexact, Bool.not_true, Bool.and_false]
  have hplan' : Plan.ofLeaf record { options with caseSensitive := false } leaf =
      .ok { plan with fold := true } := by
    rw [Plan.ofLeaf_caseSensitive, hplan]
    simp [Except.map, hdeclared]
  generalize hliterals : (op.tokens options.locale leaf.value).map Value.string = literals
  obtain ⟨filter, hfilter, heval⟩ :=
    exists_build_of_plan hplan hdeclared hleaf hname hbuiltin hop harity hliterals.symm
  obtain rfl : exact = filter := Except.ok.inj (h.symm.trans hfilter)
  obtain ⟨folded, hfolded, heval'⟩ :=
    exists_build_of_plan hplan' hdeclared hleaf hname hbuiltin hop harity hliterals.symm
  rw [hfold, if_neg Bool.false_ne_true] at heval
  simp only [if_true] at heval'
  obtain ⟨-, hnull, hempty, -⟩ := Operator.test_of_mem_matching hop
  rw [Plan.binding_of_ofLeaf hname hbuiltin hplan] at htarget
  have hscalar := Test.isScalar_of_misuse? hnull hempty (Plan.checkTarget_eq_ok htarget)
  refine ⟨folded, hfolded, ?_⟩
  simp only [heval, heval']
  exact Resolution.folded_of_exact_iff_settled hop hscalar options.coercer

private def exactly : Options := { caseSensitive := true }

private def dictionary : RecordType :=
  ⟨[⟨"Dictionary", [("entries", .list (.object 1))], none⟩,
    ⟨"Entry", [("words", .list (.scalar .string false))], none⟩], 0⟩

private def wise : Rule := .leaf "entries.words" "ends_with" "string" (some (.text "ΣΟΦΟΣ"))

private def philosopher : Datum :=
  .record [("entries", .list [.record [("words", .list [.scalar (.string "ΦΙΛΟΣΟΦΟΣ")])] []])] []

-- A pattern with one sigma inside the word that it opens and one that ends texts anyway.
theorem wise_found_in_lower_case :
    ∃ exact folded, build dictionary exactly (some wise) = .ok exact ∧
      build dictionary { exactly with caseSensitive := false } (some wise) = .ok folded ∧
      exact.evaluate philosopher = .ok true ∧ folded.evaluate philosopher = .ok true := by
  have hrun : (build dictionary exactly (some wise)).map (·.evaluate philosopher) =
      .ok (.ok true) := by
    decide +kernel
  obtain ⟨exact, h, haccepts⟩ := Outcome.map_eq_ok.mp hrun
  obtain ⟨folded, hfolded, hiff⟩ := accepted_folded_iff_settled rfl
    (show wise.operator = some Operator.endsWith.name from rfl) rfl (by decide) (by decide +kernel)
    rfl h
  have htokens : Operator.endsWith.tokens exactly.locale wise.value = ["ΣΟΦΟΣ"] := by
    decide +kernel
  have hsettled : Operator.endsWith.test.Settled
      ((Operator.endsWith.tokens exactly.locale wise.value).map .string) := by
    intro text pattern htext hpattern
    rw [htokens] at hpattern
    cases htext
    cases hpattern
    exact ⟨.inr (by decide +kernel), .inl rfl⟩
  exact ⟨exact, folded, h, hfolded, haccepts, hiff.mpr hsettled philosopher haccepts⟩

private def names : RecordType := ⟨[⟨"T", [("name", .scalar .string false)], none⟩], 0⟩

private def sigma : Rule := .leaf "name" "contains" "string" (some (.text "Σ"))

private def street : Datum := .record [("name", .scalar (.string "ΟΔΟΣ"))] []

-- At the end of the word the sigma gets another lower case than alone.
theorem sigma_found_only_exactly :
    ∃ exact folded, build names exactly (some sigma) = .ok exact ∧
      build names { exactly with caseSensitive := false } (some sigma) = .ok folded ∧
      exact.evaluate street = .ok true ∧ folded.evaluate street = .ok false := by
  have hexact : (build names exactly (some sigma)).map (·.evaluate street) = .ok (.ok true) := by
    decide +kernel
  have hfolded : (build names { exactly with caseSensitive := false } (some sigma)).map
      (·.evaluate street) = .ok (.ok false) := by
    decide +kernel
  obtain ⟨exact, h, haccepts⟩ := Outcome.map_eq_ok.mp hexact
  obtain ⟨folded, h', hrejects⟩ := Outcome.map_eq_ok.mp hfolded
  exact ⟨exact, folded, h, h', haccepts, hrejects⟩

end Filter

end Sieve

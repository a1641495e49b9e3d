import Sieve.Proofs.Plan.Leaf
import Sieve.Proofs.Plan.Verdict

-- Operators that come in pairs, one the negation of the other: what they are compiled to, and that
-- they part all records between them.
namespace Sieve

-- The same error about another operator.
def RuleError.withOperator (name : String) : RuleError → RuleError
  | .configuration (.unknownOperator _) => .configuration (.unknownOperator name)
  | .configuration (.arity _ field expected actual) =>
    .configuration (.arity name field expected actual)
  | .configuration (.unsupportedOperator _ field misuse) =>
    .configuration (.unsupportedOperator name field misuse)
  | .configuration (.rejected _ reason) => .configuration (.rejected name reason)
  | .coercion e => .coercion { e with operator := name }
  | e => e

-- A leaf with another operator.
def Rule.asking (leaf : Rule) (op : Operator) : Rule :=
  { leaf with operator := some op.name }

-- An outcome whose error, if it is one, says nothing about an operator.
def NamesNoOperator {α : Type} (outcome : Except RuleError α) : Prop :=
  ∀ name, outcome.mapError (RuleError.withOperator name) = outcome

namespace Resolution

variable {catalog : Catalog} {settings : Settings} {field : String}

theorem indexer?_namesNoOperator (segment : String) (schema : Schema) :
    NamesNoOperator (indexer? settings field segment schema) := by
  intro name
  unfold indexer?
  cases schema.indexer with
  | none => rfl
  | some entry =>
      dsimp only
      split
      · rfl
      · split <;> rfl

theorem advance_namesNoOperator (segment : String) (next : Option String) (w : Walk) :
    NamesNoOperator (advance catalog settings field segment next w) := by
  intro name
  unfold advance
  dsimp only
  split
  · rename_i schema htype
    split
    · rfl
    · rw [Outcome.mapError_bind, indexer?_namesNoOperator]
      refine bind_congr fun entry => ?_
      split
      · split <;> rfl
      · rfl
  · rfl
  · rfl

theorem walk_namesNoOperator (segments : List String) (used : Bool) (w : Walk) :
    NamesNoOperator (walk catalog settings field segments used w) := by
  intro name
  induction segments generalizing used w with
  | nil => cases used <;> rfl
  | cons segment rest ih =>
      cases used with
      | true => exact ih false w
      | false =>
          have hadvance : (advance catalog settings field segment rest.head? w).mapError
              (RuleError.withOperator name) =
              advance catalog settings field segment rest.head? w :=
            advance_namesNoOperator segment rest.head? w name
          rw [walk]
          cases h : advance catalog settings field segment rest.head? w with
          | error e =>
              rw [h] at hadvance
              exact congrArg Except.error (Except.error.inj hadvance)
          | ok next => exact ih next.2 next.1

theorem resolve_namesNoOperator (record : RecordType) :
    NamesNoOperator (resolve record settings field) := by
  intro name
  rw [resolve, Outcome.mapError_map, walk_namesNoOperator]

end Resolution

variable {record : RecordType} {options : Options} {leaf : Rule} {op other : Operator}

theorem Coercer.coerceAll_withOperator (c : Coercer) (kind : Kind) (name other field : String)
    (tokens : List String) :
    (c.coerceAll kind other field tokens).mapError .coercion =
      ((c.coerceAll kind name field tokens).mapError .coercion).mapError
        (RuleError.withOperator other) := by
  induction tokens with
  | nil => rfl
  | cons token rest ih =>
      rw [coerceAll, coerceAll, coerce, coerce]
      cases c.parse token kind with
      | none => rfl
      | some value =>
          change (c.coerceAll kind other field rest >>= fun values =>
              Except.ok (value :: values)).mapError RuleError.coercion =
            ((c.coerceAll kind name field rest >>= fun values =>
              Except.ok (value :: values)).mapError RuleError.coercion).mapError _
          rw [Outcome.mapError_bind, ih, Outcome.mapError_bind, Outcome.mapError_bind]
          rfl

-- Operators that the same fields are fit for are planned alike.
theorem Plan.ofLeaf_asking (hmisuse : other.test.misuse? = op.test.misuse?)
    (hop : options.operator? op.name = none) (hother : options.operator? other.name = none) :
    ofLeaf record options (leaf.asking other) =
      ((ofLeaf record options (leaf.asking op)).mapError (RuleError.withOperator other.name)).map
        fun plan => { plan with binding := .builtin other } := by
  have hrequire (slot : Slot) (text : Option String) : NamesNoOperator (require slot text) := by
    intro name
    cases text <;> rfl
  have hread (type : String) : NamesNoOperator (readKind type) := by
    intro name
    unfold readKind
    split <;> rfl
  have hkind (r : Resolution) (field : String) (declared : Kind) :
      NamesNoOperator ((r.checkKind field declared).mapError .configuration) := by
    intro name
    unfold Resolution.checkKind
    split
    · split <;> rfl
    · rfl
  have htarget (field : String) (type : FieldType) (declared : Kind) :
      (checkTarget (.builtin op) field type declared).mapError (RuleError.withOperator other.name) =
        checkTarget (.builtin other) field type declared := by
    unfold checkTarget
    simp only [hmisuse]
    split <;> rfl
  simp only [ofLeaf, Rule.asking, require.eq_1, Outcome.mapError_bind, Outcome.map_bind,
    hrequire _ _ other.name, hread _ other.name]
  refine bind_congr fun field => bind_congr fun type => bind_congr fun declared => ?_
  change (findOperator options other.name >>= _) =
    (findOperator options op.name).mapError (RuleError.withOperator other.name) >>= _
  rw [findOperator_name hother, findOperator_name hop]
  change (Resolution.resolve record options.toSettings field >>= _) =
    (Resolution.resolve record options.toSettings field).mapError
      (RuleError.withOperator other.name) >>= _
  rw [Resolution.resolve_namesNoOperator]
  refine bind_congr fun resolution => ?_
  rw [hkind]
  refine bind_congr fun _ => ?_
  rw [htarget]
  rfl

-- The literals of operators with the same test are read alike.
theorem LeafPlan.values_withOperator (plan : LeafPlan) (htest : other.test = op.test)
    (settings : Settings) (coercer : Coercer) (raw : Option RawValue) :
    plan.values other settings coercer raw =
      (plan.values op settings coercer raw).mapError (RuleError.withOperator other.name) := by
  have htokens : other.tokens settings.locale raw = op.tokens settings.locale raw := by
    rw [Operator.tokens, Operator.tokens, htest]
  rw [values_eq, values_eq, htokens, htest]
  split
  · rw [Coercer.coerceAll_withOperator coercer plan.declared op.name, Outcome.mapError_map]
  · rfl

-- The condition of a leaf with an operator, its negation aside.
def positiveCondition (record : RecordType) (options : Options) (op : Operator) (leaf : Rule) :
    Except RuleError Condition := do
  let plan ← Plan.ofLeaf record options (leaf.asking op)
  let values ← plan.values op options.toSettings options.coercer leaf.value
  return plan.positive op.test values

theorem positiveCondition_withOperator (htest : other.test = op.test)
    (hop : options.operator? op.name = none) (hother : options.operator? other.name = none) :
    positiveCondition record options other leaf =
      (positiveCondition record options op leaf).mapError
        (RuleError.withOperator other.name) := by
  rw [positiveCondition, positiveCondition, Plan.ofLeaf_asking (by rw [htest]) hop hother,
    Outcome.mapError_bind]
  cases Plan.ofLeaf record options (leaf.asking op) with
  | error e => rfl
  | ok plan =>
      change (LeafPlan.values _ other options.toSettings options.coercer leaf.value >>= _) =
        (plan.values op options.toSettings options.coercer leaf.value >>= _).mapError _
      rw [Outcome.mapError_bind, ← LeafPlan.values_withOperator plan htest, htest]
      rfl

theorem compile_asking (hleaf : leaf.isLeaf = true) (hop : options.operator? op.name = none) :
    compile record options (some (leaf.asking op)) =
      (positiveCondition record options op leaf).map fun condition =>
        if op.isNegated then condition.negate else condition := by
  rw [compile_leaf (show (leaf.asking op).isLeaf = true from hleaf), positiveCondition,
    Outcome.map_bind]
  cases hplan : Plan.ofLeaf record options (leaf.asking op) with
  | error e => rfl
  | ok plan =>
      change plan.bind record.catalog options (leaf.asking op) = _
      rw [LeafPlan.bind_builtin (Plan.binding_of_ofLeaf rfl hop hplan)]
      change (plan.values op options.toSettings options.coercer leaf.value).map _ =
        (plan.values op options.toSettings options.coercer leaf.value >>= _).map _
      cases plan.values op options.toSettings options.coercer leaf.value <;> rfl

theorem Condition.eval_negate (coercer : Coercer) (condition : Condition) (datum : Datum) :
    condition.negate.eval coercer datum = (condition.eval coercer datum).map (!·) := by
  cases condition <;> rfl

theorem Operator.test_positive {positive : Operator} (h : op.positive? = some positive) :
    op.test = positive.test ∧ positive.isNegated = false := by
  cases op <;> cases h <;> exact ⟨rfl, rfl⟩

namespace Filter

theorem build_asking (hleaf : leaf.isLeaf = true) (hop : options.operator? op.name = none) :
    build record options (some (leaf.asking op)) =
      (positiveCondition record options op leaf).map fun condition =>
        ⟨if op.isNegated then condition.negate else condition, options.coercer⟩ := by
  rw [build, compile_asking hleaf hop]
  cases positiveCondition record options op leaf <;> rfl

-- An operator and its negation are compiled alike, up to their names in errors, and of every
-- record the filters say the opposite, unless both fail in the same way.
theorem build_negated_and_evaluate_eq_not {positive : Operator}
    (hpair : op.positive? = some positive) (hop : options.operator? op.name = none)
    (hpositive : options.operator? positive.name = none) (hleaf : leaf.isLeaf = true) :
    (∀ filter, build record options (some (leaf.asking positive)) = .ok filter →
      ∃ negated, build record options (some (leaf.asking op)) = .ok negated ∧
        ∀ datum, negated.evaluate datum = (filter.evaluate datum).map (!·)) ∧
    (∀ e, build record options (some (leaf.asking positive)) = .error e →
      build record options (some (leaf.asking op)) = .error (e.withOperator op.name)) ∧
    ∀ e, build record options (some (leaf.asking op)) = .error e →
      build record options (some (leaf.asking positive)) =
        .error (e.withOperator positive.name) := by
  obtain ⟨htest, hplain⟩ := Operator.test_positive hpair
  have hnegated : op.isNegated = true := by rw [Operator.isNegated, hpair]; rfl
  rw [build_asking hleaf hop, build_asking hleaf hpositive]
  simp only [hplain, hnegated, Bool.false_eq_true, if_false, if_true, Outcome.map_eq_error]
  refine ⟨?_, ?_, ?_⟩
  · intro filter h
    obtain ⟨condition, hcondition, rfl⟩ := Outcome.map_eq_ok.mp h
    refine ⟨⟨condition.negate, options.coercer⟩, ?_, Condition.eval_negate _ condition⟩
    rw [positiveCondition_withOperator htest hpositive hop, hcondition]
    rfl
  · intro e h
    rw [positiveCondition_withOperator htest hpositive hop, h]
    rfl
  · intro e h
    rw [positiveCondition_withOperator htest.symm hop hpositive, h]
    rfl

private def depots : RecordType :=
  ⟨[⟨"Depot", [("crates", .list (.object 1))], none⟩, ⟨"Crate", [("code", .dynamic)], none⟩], 0⟩

private def coded : Rule := .leaf "crates.code" "in" "integer" (some (.text "[7, 8]"))

private def depot (codes : List Datum) : Datum :=
  .record [("crates", .list (codes.map fun code => .record [("code", code)] []))] []

-- No crate has one of the codes, not even the one without a code; and behind a code that is no
-- number neither filter looks any further.
theorem notOneOf_denies_codes :
    ∃ negated, build depots {} (some (coded.asking .notOneOf)) = .ok negated ∧
      negated.evaluate (depot [.null, .scalar (.string "9")]) = .ok true ∧
      negated.evaluate (depot [.scalar (.string "x"), .scalar (.long 7)]) =
        .error ⟨"in", "code", .integer, "x"⟩ := by
  have hrun : (build depots {} (some (coded.asking .oneOf))).map (fun filter =>
      (filter.evaluate (depot [.null, .scalar (.string "9")]),
        filter.evaluate (depot [.scalar (.string "x"), .scalar (.long 7)]))) =
      .ok (.ok false, .error ⟨"in", "code", .integer, "x"⟩) := by
    decide +kernel
  obtain ⟨filter, h, houtcomes⟩ := Outcome.map_eq_ok.mp hrun
  obtain ⟨hdenied, hunread⟩ := Prod.mk.inj houtcomes
  obtain ⟨negated, hnegated, heval⟩ := (@build_negated_and_evaluate_eq_not depots {} coded
    .notOneOf .oneOf rfl rfl rfl rfl).1 filter h
  refine ⟨negated, hnegated, ?_, ?_⟩
  · rw [heval, hdenied]
    rfl
  · rw [heval, hunread]
    rfl

end Filter

end Sieve

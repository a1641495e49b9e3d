import Sieve.Proofs.Literal.BracketList
import Sieve.Proofs.Plan.Folding
import Sieve.Proofs.Plan.Testing

-- A membership rule with its texts in one text, in brackets, and with a list of them.
namespace Sieve

variable {record : RecordType} {options : Options} {leaf : Rule} {plan : LeafPlan}
  {texts : List String} {raw other : RawValue}

namespace Literal

-- Texts in double quotes with commas between them, in brackets.
def bracketed (texts : List String) : String :=
  let quoted (s : String) : List Char := '"' :: (BracketList.escape '"' s.toList ++ ['"'])
  String.ofList ('[' :: ([','].intercalate (texts.map quoted) ++ [']']))

theorem forall₂_writes_quoted (texts : List String) :
    List.Forall₂ BracketList.Writes (texts.map String.toList)
      (texts.map fun s => '"' :: (BracketList.escape '"' s.toList ++ ['"'])) := by
  induction texts with
  | nil => exact .nil
  | cons s texts ih =>
      have hspells : BracketList.Spells s.toList
          ('"' :: (BracketList.escape '"' s.toList ++ ['"'])) := .quoted (.inl rfl)
      have hwrites := BracketList.Writes.intro (List.nil_subset _) hspells (List.nil_subset _)
      rw [List.append_nil, List.nil_append] at hwrites
      exact .cons hwrites ih

theorem splitText_bracketed (h : texts ≠ [""]) : splitText (bracketed texts) = texts := by
  have hne : texts.map String.toList ≠ [[]] := by
    intro hempty
    obtain ⟨s, rfl, hs⟩ := List.map_eq_singleton_iff.mp hempty
    exact h (by rw [String.toList_eq_nil_iff.mp hs])
  have hread := BracketList.read_intercalate (forall₂_writes_quoted texts) hne
  simp only [splitText, bracketed, String.toList_ofList, BracketList.trim_bracketed, hread]
  simp [Function.comp_def]

-- One empty text is taken for blank brackets, even in quotes.
theorem splitText_bracketed_empty : splitText (bracketed [""]) = [] := by
  decide +kernel

theorem itemTokens_texts (locale : Locale) (texts : List String) :
    itemTokens locale (texts.map .text) = texts := by
  induction texts with
  | nil => rfl
  | cons s texts ih => exact congrArg (s :: ·) ih

end Literal

-- An operator that does not care how the texts of its literal were given.
def CustomOperator.ReadsTexts (op : CustomOperator) : Prop :=
  ∀ context value, op.build { context with rule := { context.rule with value := value } } =
    op.build context

theorem CustomOperator.anyOf_readsTexts (name : String) (id : Nat) : (anyOf name id).ReadsTexts :=
  fun _ _ => rfl

-- The literal of a rule is not looked at for the plan.
theorem compile_testing (hleaf : leaf.isLeaf = true) (raw : RawValue) :
    compile record options (some (leaf.testing .oneOf raw)) =
      Plan.ofLeaf record options (leaf.asking .oneOf) >>= fun plan =>
        plan.bind record.catalog options (leaf.testing .oneOf raw) :=
  compile_leaf (show (leaf.testing .oneOf raw).isLeaf = true from hleaf)

theorem LeafPlan.bind_testing {catalog : Catalog} (hbinding : plan.binding = .builtin .oneOf)
    (raw : RawValue) :
    plan.bind catalog options (leaf.testing .oneOf raw) =
      (plan.values .oneOf options.toSettings options.coercer (some raw)).map
        (plan.positive .oneOf) :=
  bind_builtin hbinding

-- A membership rule is about the texts of its literal, however they are given, whether its operator
-- is the built-in one or one that the caller put in its place.
theorem LeafPlan.bind_congr_tokens {catalog : Catalog}
    (hbinding : Plan.findOperator options Operator.oneOf.name = .ok plan.binding)
    (hshadow : ∀ op, options.operator? Operator.oneOf.name = some op → op.ReadsTexts)
    (htokens : Literal.tokens options.locale true raw = Literal.tokens options.locale true other) :
    plan.bind catalog options (leaf.testing .oneOf raw) =
      plan.bind catalog options (leaf.testing .oneOf other) := by
  cases hfound : options.operator? Operator.oneOf.name with
  | none =>
      rw [Plan.findOperator_name hfound] at hbinding
      have hbuiltin : plan.binding = .builtin .oneOf := (Except.ok.inj hbinding).symm
      have hsame : Operator.oneOf.tokens options.locale (some raw) =
          Operator.oneOf.tokens options.locale (some other) := htokens
      rw [bind_testing hbuiltin, bind_testing hbuiltin, values_eq, values_eq, hsame]
  | some op =>
      rw [Plan.findOperator, hfound] at hbinding
      have hcustom : plan.binding = .custom op := (Except.ok.inj hbinding).symm
      let context : OperatorContext :=
        { rule := leaf.testing .oneOf other
          catalog := catalog
          fieldType := plan.resolution.type
          field := plan.target
          tokens := Literal.tokens options.locale true other
          settings := options.toSettings }
      have hbuild := hshadow op hfound context (some raw)
      unfold LeafPlan.bind
      simp only [hcustom, Rule.testing, Literal.canonicalize, htokens]
      exact congrArg (· >>= fun test => .ok (test.quantify (plan.resolution.hopRefs plan.declared)))
        hbuild

theorem compile_congr_tokens (hleaf : leaf.isLeaf = true)
    (hshadow : ∀ op, options.operator? Operator.oneOf.name = some op → op.ReadsTexts)
    (htokens : Literal.tokens options.locale true raw = Literal.tokens options.locale true other) :
    compile record options (some (leaf.testing .oneOf raw)) =
      compile record options (some (leaf.testing .oneOf other)) := by
  rw [compile_testing hleaf, compile_testing hleaf]
  cases hplan : Plan.ofLeaf record options (leaf.asking .oneOf) with
  | error e => rfl
  | ok plan =>
      obtain ⟨-, -, ⟨name, hname, hbinding⟩, -⟩ := Plan.ofLeaf_eq_ok hplan
      obtain rfl : Operator.oneOf.name = name := Option.some.inj hname
      exact LeafPlan.bind_congr_tokens hbinding hshadow htokens

section Planned

variable (hleaf : leaf.isLeaf = true) (hbuiltin : options.operator? Operator.oneOf.name = none)
  (hplan : Plan.ofLeaf record options (leaf.asking .oneOf) = .ok plan)
include hleaf hbuiltin hplan

theorem compile_planned (raw : RawValue) :
    compile record options (some (leaf.testing .oneOf raw)) =
      (plan.values .oneOf options.toSettings options.coercer (some raw)).map
        (plan.positive .oneOf) := by
  rw [compile_testing hleaf, hplan]
  exact LeafPlan.bind_testing (Plan.binding_of_ofLeaf rfl hbuiltin hplan) raw

-- A text field takes any texts but none.
theorem compiles_texts (hstring : leaf.type.bind Kind.read = some .string) (hne : texts ≠ []) :
    Compiles record options (leaf.testing .oneOf (.list (texts.map .text))) := by
  obtain ⟨-, hdeclared, -⟩ := Plan.ofLeaf_eq_ok hplan
  have hdeclared : plan.declared = .string := Option.some.inj (hdeclared.symm.trans hstring)
  have htokens : Operator.oneOf.tokens options.locale (some (.list (texts.map .text))) = texts :=
    Literal.itemTokens_texts options.locale texts
  have harity : Operator.oneOf.test.arity.accepts texts.length = true :=
    decide_eq_true (List.length_pos_of_ne_nil hne)
  rw [Compiles, compile_planned hleaf hbuiltin hplan, LeafPlan.values_eq, htokens, if_pos harity,
    hdeclared, Coercer.coerceAll_string]
  exact ⟨_, rfl⟩

-- Blank brackets are too few texts.
theorem compile_bracketed_empty :
    compile record options (some (leaf.testing .oneOf (.text (Literal.bracketed [""])))) =
      .error (.configuration (.arity Operator.oneOf.name plan.field .atLeastOne 0)) := by
  have htokens :
      Operator.oneOf.tokens options.locale (some (.text (Literal.bracketed [""]))) = [] :=
    Literal.splitText_bracketed_empty
  rw [compile_planned hleaf hbuiltin hplan, LeafPlan.values_eq, htokens]
  rfl

end Planned

-- A membership rule with its texts in brackets and one with a list of them come to the same, unless
-- there is just one text and that is empty: it is taken for blank brackets, and the rule is refused.
-- A list of texts is refused only if there are none.
theorem compile_bracketed (hleaf : leaf.isLeaf = true)
    (hstring : leaf.type.bind Kind.read = some .string)
    (hshadow : ∀ op, options.operator? Operator.oneOf.name = some op → op.ReadsTexts) :
    (texts ≠ [""] →
      compile record options (some (leaf.testing .oneOf (.text (Literal.bracketed texts)))) =
        compile record options (some (leaf.testing .oneOf (.list (texts.map .text))))) ∧
    (options.operator? Operator.oneOf.name = none →
      ∀ plan, Plan.ofLeaf record options (leaf.asking .oneOf) = .ok plan →
        (texts ≠ [] → Compiles record options (leaf.testing .oneOf (.list (texts.map .text)))) ∧
        (texts = [""] →
          compile record options (some (leaf.testing .oneOf (.text (Literal.bracketed texts)))) =
            .error (.configuration (.arity Operator.oneOf.name plan.field .atLeastOne 0)))) := by
  constructor
  · intro hne
    apply compile_congr_tokens hleaf hshadow
    change Literal.splitText (Literal.bracketed texts) = Literal.itemTokens options.locale _
    rw [Literal.splitText_bracketed hne, Literal.itemTokens_texts]
  · intro hbuiltin plan hplan
    refine ⟨compiles_texts hleaf hbuiltin hplan hstring, ?_⟩
    rintro rfl
    exact compile_bracketed_empty hleaf hbuiltin hplan

private def shop : RecordType :=
  ⟨[⟨"Shop", [("articles", .list (.object 1))], none⟩,
    ⟨"Article", [("labels", .list (.scalar .string false))], none⟩], 0⟩

private def labelled : Rule := .leaf "articles.labels" "in" "string" none

-- A label with a comma in it and one with a quote, on the way through two collections, with the
-- built-in operator and with one in its place.
theorem quoted_labels_in_brackets :
    Compiles shop {} (labelled.testing .oneOf (.list [.text "red, striped", .text "3\" wide"])) ∧
      ∀ operators ∈ [[], [CustomOperator.anyOf "in" 0]],
        compile shop { operators }
            (some (labelled.testing .oneOf (.text "[\"red, striped\",\"3\\\" wide\"]"))) =
          compile shop { operators }
            (some (labelled.testing .oneOf (.list [.text "red, striped", .text "3\" wide"]))) := by
  have hstring : labelled.type.bind Kind.read = some .string := by decide +kernel
  have hwritten : Literal.bracketed ["red, striped", "3\" wide"] =
      "[\"red, striped\",\"3\\\" wide\"]" := by
    decide +kernel
  rw [← hwritten]
  have hsame (operators : List CustomOperator) := @compile_bracketed shop { operators } labelled
    ["red, striped", "3\" wide"] rfl hstring
  constructor
  · obtain ⟨plan, hplan⟩ : ∃ plan, Plan.ofLeaf shop {} (labelled.asking .oneOf) = .ok plan :=
      Outcome.exists_ok_of_isOk (by decide +kernel)
    obtain ⟨-, hplanned⟩ := hsame [] (by rintro op ⟨⟩)
    exact (hplanned rfl plan hplan).1 (by decide)
  · intro operators hoperators
    simp only [List.mem_cons, List.not_mem_nil, or_false] at hoperators
    refine (hsame operators ?_).1 (by decide)
    rcases hoperators with rfl | rfl
    · rintro op ⟨⟩
    · rintro op ⟨⟩
      exact CustomOperator.anyOf_readsTexts "in" 0

-- An empty label alone can be asked for in a list, but not in brackets.
theorem empty_label_refused_in_brackets :
    compile shop {} (some (labelled.testing .oneOf (.text "[\"\"]"))) =
        .error (.configuration (.arity "in" "articles.labels" .atLeastOne 0)) ∧
      Compiles shop {} (labelled.testing .oneOf (.list [.text ""])) := by
  have hrefused : Outcome.error? (compile shop {}
      (some (labelled.testing .oneOf (.text "[\"\"]")))) =
        some (.configuration (.arity "in" "articles.labels" .atLeastOne 0)) := by
    decide +kernel
  exact ⟨Outcome.error?_eq_some.mp hrefused, Outcome.exists_ok_of_isOk (by decide +kernel)⟩

end Sieve

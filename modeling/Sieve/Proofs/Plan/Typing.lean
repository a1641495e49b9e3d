import Sieve.Proofs.Operator.Typing
import Sieve.Proofs.Plan.Assembly

-- The conditions that rules compile to make sense of the records they are compiled for.
namespace Sieve

variable {words : List String} {record : RecordType} {options : Options}

namespace Condition

variable {catalog : Catalog} {type : FieldType}

theorem Fits.negate {condition : Condition} (h : condition.Fits catalog words type) :
    condition.negate.Fits catalog words type := by
  cases condition with
  | constant b => exact .constant !b
  | _ => exact .not h

theorem Fits.combine {combinator : Combinator} {parts : List Condition}
    (h : ∀ part ∈ parts, part.Fits catalog words type) :
    (combine combinator parts).Fits catalog words type := by
  match parts, combinator with
  | [part], _ => exact h part (.head _)
  | [], .and => exact .constant true
  | [], .or => exact .constant false
  | _ :: _ :: _, .and => exact .all h
  | _ :: _ :: _, .or => exact .any h

end Condition

namespace LeafPlan

variable {plan : LeafPlan} {op : Operator} {settings : Settings} {coercer : Coercer}
  {raw : Option RawValue} {values : List Value}

-- Literals are of the kind that the leaf declares.
theorem kind_of_values (h : plan.values op settings coercer raw = .ok values) :
    ∀ value ∈ values, value.kind = plan.declared := by
  unfold LeafPlan.values at h
  dsimp only at h
  generalize (if op.test.takesValue = true then
    Literal.canonicalize raw op.test.splitsText settings.locale else []) = tokens at h
  split at h
  · cases h
  · obtain ⟨read, hread, hvalues⟩ := Outcome.bind_eq_ok.mp h
    have hkinds := Coercer.kind_of_coerceAll (Outcome.mapError_eq_ok.mp hread)
    cases hvalues
    split
    · rw [List.forall_mem_map]
      intro value hvalue
      rw [Value.kind_foldCase, hkinds value hvalue]
    · exact hkinds

end LeafPlan

-- Whether texts of a kind are compared in lower case.
def Options.folds (options : Options) (declared : Kind) : Bool :=
  declared == .string && !options.caseSensitive

-- What the making of a leaf's plan has found out.
theorem Plan.ofLeaf_eq_ok {rule : Rule} {plan : LeafPlan}
    (h : ofLeaf record options rule = .ok plan) :
    rule.field = some plan.field ∧ rule.type.bind Kind.read = some plan.declared ∧
      (∃ name, rule.operator = some name ∧ findOperator options name = .ok plan.binding) ∧
      Resolution.resolve record options.toSettings plan.field = .ok plan.resolution ∧
      plan.resolution.checkKind plan.field plan.declared = .ok () ∧
      checkTarget plan.binding plan.field plan.resolution.type plan.declared = .ok () ∧
      plan.fold = options.folds plan.declared := by
  unfold ofLeaf at h
  obtain ⟨field, hfield, h⟩ := Outcome.bind_eq_ok.mp h
  obtain ⟨type, htype, h⟩ := Outcome.bind_eq_ok.mp h
  obtain ⟨declared, hdeclared, h⟩ := Outcome.bind_eq_ok.mp h
  obtain ⟨name, hname, h⟩ := Outcome.bind_eq_ok.mp h
  obtain ⟨binding, hbinding, h⟩ := Outcome.bind_eq_ok.mp h
  obtain ⟨resolution, hresolution, h⟩ := Outcome.bind_eq_ok.mp h
  obtain ⟨⟨⟩, hkind, h⟩ := Outcome.bind_eq_ok.mp h
  obtain ⟨⟨⟩, htarget, h⟩ := Outcome.bind_eq_ok.mp h
  cases h
  have hrequire {slot : Slot} {text : Option String} {s : String}
      (h : require slot text = .ok s) : text = some s := by
    unfold require at h
    split at h <;> cases h
    rfl
  have hread : Kind.read type = some declared := by
    unfold readKind at hdeclared
    split at hdeclared <;> cases hdeclared
    assumption
  have hdeclares : rule.type.bind Kind.read = some declared := by
    rw [hrequire htype, Option.bind_some, hread]
  exact ⟨hrequire hfield, hdeclares, ⟨name, hrequire hname, hbinding⟩, hresolution,
    Outcome.mapError_eq_ok.mp hkind, htarget, rfl⟩

-- With the field, the kind and the operator of a leaf known, two checks are left.
theorem Plan.ofLeaf_eq {rule : Rule} {field name : String} {declared : Kind} {binding : Binding}
    {r : Resolution} (hfield : rule.field = some field)
    (hdeclared : rule.type.bind Kind.read = some declared) (hname : rule.operator = some name)
    (hbinding : findOperator options name = .ok binding)
    (hresolve : Resolution.resolve record options.toSettings field = .ok r) :
    ofLeaf record options rule =
      ((r.checkKind field declared).mapError .configuration >>= fun _ =>
        checkTarget binding field r.type declared).map fun _ =>
          { field, declared, binding, resolution := r, fold := options.folds declared } := by
  obtain ⟨type, htype, hread⟩ := Option.bind_eq_some_iff.mp hdeclared
  have hok {α β : Type} (a : α) (f : α → Except RuleError β) : (.ok a >>= f) = f a := rfl
  simp only [ofLeaf, hfield, htype, hname, require, readKind, hread, hbinding, hresolve, hok]
  cases r.checkKind field declared with
  | error e => rfl
  | ok => cases checkTarget binding field r.type declared <;> rfl

theorem Plan.checkTarget_eq_ok {op : Operator} {field : String} {type : FieldType} {declared : Kind}
    (h : checkTarget (.builtin op) field type declared = .ok ()) :
    op.test.misuse? type declared = none := by
  unfold checkTarget at h
  dsimp only at h
  split at h
  · cases h
  · rename_i hmisuse
    exact hmisuse

theorem Resolution.checkKind_eq_ok {r : Resolution} {field : String} {declared kind : Kind}
    {nullable : Bool} (h : r.checkKind field declared = .ok ())
    (helement : r.type.element = .scalar kind nullable) : declared.accepts kind = true := by
  unfold checkKind at h
  rw [helement] at h
  by_contra haccepts
  simp [haccepts] at h

theorem LeafPlan.fits_bind {plan : LeafPlan} {op : Operator} {rule : Rule} {condition : Condition}
    (hbinding : plan.binding = .builtin op)
    (hreaches : Reaches record.catalog words (.object record.root) plan.resolution.hops
      plan.resolution.path plan.resolution.type)
    (hne : plan.resolution.path ≠ [])
    (hdynamic : plan.resolution.type.element ≠ .dynamic)
    (hkind : plan.resolution.checkKind plan.field plan.declared = .ok ())
    (hmisuse : op.test.misuse? plan.resolution.type plan.declared = none)
    (h : plan.bind record.catalog options rule = .ok condition) :
    condition.Fits record.catalog words (.object record.root) := by
  unfold LeafPlan.bind at h
  simp only [hbinding] at h
  obtain ⟨values, hvalues, h⟩ := Outcome.bind_eq_ok.mp h
  have hfits := Condition.Fits.quantify hreaches plan.declared fun place hpath =>
    Test.fits_build hpath hdynamic (fun kind nullable => Resolution.checkKind_eq_ok hkind)
      (LeafPlan.kind_of_values hvalues) op.test op.test_ne hne hmisuse plan.fold
  cases h
  split
  · exact hfits.negate
  · exact hfits

namespace Rule

-- The names that the leaves of a tree ask for on their paths.
def segments (rule : Option Rule) : List String :=
  (leavesOf rule.toList).flatMap fun leaf => leaf.field.toList.flatMap Resolution.segments

theorem segments_subset {rule : Option Rule} {leaf : Rule} {field : String}
    (hleaf : leaf ∈ leavesOf rule.toList) (hfield : leaf.field = some field) :
    Resolution.segments field ⊆ segments rule := by
  intro segment hsegment
  refine List.mem_flatMap.mpr ⟨leaf, hleaf, List.mem_flatMap.mpr ⟨field, ?_, hsegment⟩⟩
  rw [hfield]
  exact List.mem_singleton.mpr rfl

theorem dot_notMem_of_mem_segments (rule : Option Rule) :
    ∀ segment ∈ segments rule, '.' ∉ segment.toList := by
  intro segment hsegment
  obtain ⟨leaf, -, hmem⟩ := List.mem_flatMap.mp hsegment
  obtain ⟨field, -, hfield⟩ := List.mem_flatMap.mp hmem
  exact Resolution.dot_notMem_of_mem_segments field segment hfield

-- A leaf whose operator is none that the caller has brought along, on a field that does not hold
-- dynamic values, be it alone or in a list.
structure IsPlain (record : RecordType) (options : Options) (leaf : Rule) : Prop where
  builtin : ∀ name ∈ leaf.operator, options.operator? name = none
  field : ∀ field ∈ leaf.field, ∀ r, Resolution.resolve record options.toSettings field = .ok r →
    r.type.element ≠ .dynamic

theorem IsPlain.of_type {leaf : Rule} {name field : String} {type : FieldType}
    (hname : leaf.operator = some name) (hbuiltin : options.operator? name = none)
    (hfield : leaf.field = some field)
    (htype : (Resolution.resolve record options.toSettings field).map (·.type) = .ok type)
    (hdynamic : type.element ≠ .dynamic) : leaf.IsPlain record options where
  builtin := by
    rw [hname]
    rintro _ ⟨⟩
    exact hbuiltin
  field := by
    rw [hfield]
    rintro _ ⟨⟩ r hresolve
    rw [hresolve] at htype
    rwa [show r.type = type from Except.ok.inj htype]

end Rule

theorem Plan.eq_builtin_of_findOperator {name : String} {binding : Binding}
    (hname : options.operator? name = none) (h : findOperator options name = .ok binding) :
    ∃ op, binding = .builtin op := by
  unfold findOperator at h
  rw [hname] at h
  dsimp only at h
  split at h
  · rename_i op hop
    cases h
    exact ⟨op, rfl⟩
  · cases h

theorem fits_of_leaf {leaf : Rule} {condition : Condition} (hleaf : leaf.isLeaf = true)
    (hplain : leaf.IsPlain record options)
    (hwords : ∀ field, leaf.field = some field → Resolution.segments field ⊆ words)
    (h : compile record options (some leaf) = .ok condition) :
    condition.Fits record.catalog words (.object record.root) := by
  obtain ⟨whole, hwhole, hbind⟩ := (compile_some_eq_ok (Rule.isEmpty_of_isLeaf hleaf)).mp h
  rw [Plan.ofRule_of_isLeaf hleaf] at hwhole
  obtain ⟨plan, hplan, rfl⟩ := Outcome.map_eq_ok.mp hwhole
  obtain ⟨hfield, -, ⟨name, hname, hbinding⟩, hresolve, hkind, htarget, -⟩ :=
    Plan.ofLeaf_eq_ok hplan
  obtain ⟨op, hop⟩ := Plan.eq_builtin_of_findOperator (hplain.builtin name hname) hbinding
  rw [hop] at htarget
  obtain ⟨hreaches, hne⟩ := Resolution.reaches_of_resolve hresolve
  exact LeafPlan.fits_bind hop (hreaches.mono (hwords plan.field hfield)) hne
    (hplain.field plan.field hfield plan.resolution hresolve) hkind
    (Plan.checkTarget_eq_ok htarget) hbind

-- A tree of such leaves compiles to a condition that fits the records it is compiled for.
theorem fits_of_compile {rule : Option Rule} {condition : Condition}
    (hplain : ∀ leaf ∈ Rule.leavesOf rule.toList, leaf.IsPlain record options)
    (h : compile record options rule = .ok condition) :
    condition.Fits record.catalog (Rule.segments rule) (.object record.root) := by
  refine compile_induction (.constant true) (fun _ _ => Condition.Fits.combine) ?_ h
  intro leaf hleaf own hcompile
  obtain ⟨tree, htree, hmem⟩ := Rule.mem_leavesOf.mp hleaf
  exact fits_of_leaf (Rule.isLeaf_of_mem_leaves hmem) (hplain leaf hleaf)
    (fun field hfield => Rule.segments_subset hleaf hfield) hcompile

end Sieve

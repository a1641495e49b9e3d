import Sieve.Proofs.Condition.Case
import Sieve.Proofs.Operator.Asking
import Sieve.Proofs.Plan.Comparability
import Sieve.Proofs.Resolution.Rounds

-- Tests for null that are decided by the schema alone say of conforming records what they would
-- say if they were put to them.
namespace Sieve

variable {catalog : Catalog} {record : RecordType} {settings : Settings} {options : Options}
  {field : String}

theorem FieldType.eq_scalar_of_isNullable {type : FieldType} (h : type.isNullable = false) :
    ∃ kind, type = .scalar kind false := by
  cases type with
  | scalar kind nullable =>
      obtain rfl : nullable = false := h
      exact ⟨kind, rfl⟩
  | _ => cases h

theorem Conforms.isNullable {type : FieldType} (h : Conforms catalog type .null) :
    type.isNullable = true := by
  cases h with
  | null h => exact h
  | dynamic => rfl

-- A member that may not be null is there in every record that conforms.
theorem Conforms.isNull_member {schema : Nat} {name : String} {type : FieldType}
    {members indexed : List (String × Datum)}
    (h : Conforms catalog (.object schema) (.record members indexed))
    (hfield : (catalog.schema schema).field? name = some type) (htype : type.isNullable = false) :
    ((Datum.record members indexed).walk [.member name]).isNull = false := by
  cases h with
  | object hfields =>
      have hmember := hfields name type hfield
      change ((members.lookup name).getD .null).isNull = false
      generalize (members.lookup name).getD .null = datum at hmember ⊢
      cases datum with
      | null => exact absurd (htype.symm.trans hmember.isNullable) (by decide)
      | _ => rfl

namespace Resolution

-- A walk that is at the record itself, or at a member of it that may not be null. Behind every
-- list, and behind every other record, something may be missing.
inductive Walk.Present (catalog : Catalog) (root : Nat) (w : Walk) : Prop where
  | start (hhops : w.hops = []) (hsteps : w.steps = []) (htype : w.type = .object root)
  | member {name : String} (hhops : w.hops = []) (hsteps : w.steps = [.member name])
      (hfield : (catalog.schema root).field? name = some w.type)
      (htype : w.type.isNullable = false)

theorem Walk.Present.not_list {root : Nat} {w : Walk} (h : w.Present catalog root)
    {inner : FieldType} : w.type ≠ .list inner := by
  intro hlist
  cases h with
  | start _ _ htype =>
      rw [hlist] at htype
      cases htype
  | member _ _ _ htype =>
      rw [hlist] at htype
      cases htype

-- A step that cannot miss anything leads from the record to a member of it that may not be null.
theorem Move.present {root : Nat} {w : Walk} {segment : String} {next : Option String} {step : Step}
    {type : FieldType} {used : Bool} (h : Move catalog segment next w.type step type false used)
    (hw : w.Present catalog root) : (w.take step type false).Present catalog root := by
  generalize hmissing : false = missing at h
  cases hw with
  | start hhops hsteps htype =>
      rw [htype] at h
      cases h with
      | member hfield =>
          exact .member hhops (by rw [Walk.take, hsteps, List.nil_append]) hfield hmissing.symm
      | _ => cases hmissing
  | member _ _ _ htype =>
      obtain ⟨kind, hscalar⟩ := FieldType.eq_scalar_of_isNullable htype
      rw [hscalar] at h
      cases h

theorem Round.present {root : Nat} {s s' : Stage} (h : Round catalog settings field s s')
    (hs : s.2.finish.nullable = false → s.2.Present catalog root)
    (hnullable : s'.2.finish.nullable = false) : s'.2.Present catalog root := by
  cases h with
  | strip htype =>
      have hwalk := hs (by simpa [Walk.finish, Walk.strip] using hnullable)
      exact absurd htype hwalk.not_list
  | advance htype h =>
      obtain ⟨step, type, missing, hmove, rfl⟩ := advance_eq_ok h
      rw [Walk.enter_of_not_list htype] at hmove hnullable ⊢
      obtain ⟨hbefore, rfl⟩ := Bool.or_eq_false_iff.mp hnullable
      exact hmove.present (hs hbefore)

theorem Rounds.present {root : Nat} {s s' : Stage} (h : Rounds catalog settings field s s')
    (hs : s.2.finish.nullable = false → s.2.Present catalog root)
    (hnullable : s'.2.finish.nullable = false) : s'.2.Present catalog root := by
  induction h with
  | refl => exact hs hnullable
  | tail _ hround ih => exact hround.present ih hnullable

-- Where a resolution says that nothing may be missing, it is a member of the record itself.
theorem member_of_not_nullable {r : Resolution} (h : resolve record settings field = .ok r)
    (hnullable : r.nullable = false) :
    ∃ name, r.hops = [] ∧ r.path = [.member name] ∧
      (record.catalog.schema record.root).field? name = some r.type ∧
        r.type.isNullable = false := by
  obtain ⟨-, hpath⟩ := reaches_of_resolve h
  obtain ⟨w, hwalk, rfl⟩ := Outcome.map_eq_ok.mp h
  have hrounds := walk_eq_ok_iff (s := (segments field, .start record.root)).mp hwalk
  have hpresent := hrounds.present (fun _ => .start rfl rfl rfl) hnullable
  cases hpresent with
  | start _ hsteps => exact absurd hsteps hpath
  | member hhops hsteps hfield htype => exact ⟨_, hhops, hsteps, hfield, htype⟩

variable {r : Resolution} {members indexed : List (String × Datum)}

-- Such a place is not null in any conforming record.
theorem any_isNull_of_not_nullable (h : resolve record settings field = .ok r)
    (hnullable : r.nullable = false)
    (hconforms : Conforms record.catalog (.object record.root) (.record members indexed)) :
    (r.places (.record members indexed)).any (·.datum.isNull) = false := by
  obtain ⟨name, hhops, hpath, hfield, htype⟩ := member_of_not_nullable h hnullable
  simp [places, hhops, hpath, Datum.elementsAlong, hconforms.isNull_member hfield htype]

end Resolution

-- Whether a place holds null can be told without the kind it is declared as, unless it is dynamic
-- itself: a list of dynamic elements is left as it is.
theorem Place.read_isNull {coercer : Coercer} {operator : String} {declared : Kind} {fold : Bool}
    {place : Place} (hholds : Holds catalog place.type place.datum)
    (hdynamic : place.type ≠ .dynamic) :
    (place.read coercer operator declared fold).map Datum.isNull = .ok place.datum.isNull := by
  have hcoerce (h : place.type.element = .dynamic) :
      coercer.coerceDatum place.datum declared = .ok place.datum := by
    obtain ⟨inner, hlist⟩ : ∃ inner, place.type = .list inner := by
      cases htype : place.type with
      | list inner => exact ⟨inner, rfl⟩
      | _ =>
          rw [htype] at h hdynamic
          exact absurd h hdynamic
    rw [hlist] at hholds
    rcases hholds with hnull | hconforms
    · rw [hnull]
      rfl
    · generalize place.datum = datum at hconforms
      cases hconforms <;> rfl
  have hread : place.read coercer operator declared fold =
      .ok (if fold then place.datum.foldCase else place.datum) := by
    unfold Place.read
    by_cases h : place.type.element = .dynamic
    · simp only [if_pos h, hcoerce h]
      rfl
    · simp only [if_neg h]
      rfl
  rw [hread]
  cases fold with
  | false => rfl
  | true => exact congrArg _ (Datum.isNull_foldCase _)

namespace Resolution

variable {r : Resolution} {declared : Kind} {fold : Bool} {coercer : Coercer}

-- A test for null that is put to the record accepts if some place that the path comes to is null.
theorem eval_isNull (h : resolve record settings field = .ok r) (hdynamic : r.type ≠ .dynamic)
    (hfold : fold = true → declared = .string) {datum : Datum}
    (hconforms : Conforms record.catalog (.object record.root) datum) :
    ((Condition.isNull (r.fieldRef declared fold)).quantify (r.hopRefs declared)).eval
        coercer datum =
      .ok ((r.places datum).any (·.datum.isNull)) := by
  rw [hopRefs, Condition.eval_quantify, places, List.any_map]
  refine Outcome.anyM_eq_any fun element helement => ?_
  have hread : (r.fieldRef declared fold).read coercer "is_null" element =
      Place.read coercer "is_null" declared fold ⟨r.type, r.path, element.walk r.path⟩ :=
    read_fieldRef hfold rfl r.path element
  have hholds := (reaches_of_resolve h).1.holds (.inr hconforms) element helement
  change ((r.fieldRef declared fold).read coercer "is_null" element).map Datum.isNull = _
  exact (congrArg _ hread).trans (Place.read_isNull hholds hdynamic)

-- Folded or not, it says the same of a conforming record.
theorem eval_build_isNull (h : resolve record settings field = .ok r) (hdynamic : r.type ≠ .dynamic)
    (hfold : fold = true → declared = .string) {members indexed : List (String × Datum)}
    (hconforms : Conforms record.catalog (.object record.root) (.record members indexed)) :
    ((Test.isNull.build (r.fieldRef declared fold) r.type.isCollection r.nullable []).quantify
        (r.hopRefs declared)).eval coercer (.record members indexed) =
      .ok ((r.places (.record members indexed)).any (·.datum.isNull)) := by
  cases hnullable : r.nullable with
  | true => exact eval_isNull h hdynamic hfold hconforms
  | false =>
      obtain ⟨name, hhops, -⟩ := member_of_not_nullable h hnullable
      rw [any_isNull_of_not_nullable h hnullable hconforms, hopRefs, hhops]
      rfl

end Resolution

section Leaf

variable {leaf : Rule} {op : Operator} {r : Resolution} (hleaf : leaf.isLeaf = true)
  (hname : leaf.operator = some op.name) (hbuiltin : options.operator? op.name = none)
  (hfield : leaf.field = some field)
  (hresolve : Resolution.resolve record options.toSettings field = .ok r)

theorem LeafPlan.values_of_isNull {plan : LeafPlan} (hnull : op.test = .isNull) :
    plan.values op options.toSettings options.coercer leaf.value = .ok [] := by
  rw [values_eq, Operator.tokens, hnull]
  cases plan.fold <;> rfl

namespace Filter

include hleaf hname hbuiltin hfield hresolve

-- A test for null can be put to a field of any type.
theorem exists_null_test_iff (hnull : op.test = .isNull) :
    (∃ filter, build record options (some leaf) = .ok filter) ↔
      ∃ declared, leaf.type.bind Kind.read = some declared ∧
        r.checkKind field declared = .ok () := by
  constructor
  · rintro ⟨filter, h⟩
    obtain ⟨plan, values, hplan, -⟩ :=
      (compile_builtin_eq_ok hleaf hname hbuiltin).mp (build_eq_ok.mp h).1
    obtain ⟨hplanField, hdeclared, -, hplanResolve, hkind, -⟩ := Plan.ofLeaf_eq_ok hplan
    obtain rfl : field = plan.field := Option.some.inj (hfield.symm.trans hplanField)
    obtain rfl : r = plan.resolution := Except.ok.inj (hresolve.symm.trans hplanResolve)
    exact ⟨plan.declared, hdeclared, hkind⟩
  · rintro ⟨declared, hdeclared, hkind⟩
    have hplan := Plan.ofLeaf_eq hfield hdeclared hname (Plan.findOperator_name hbuiltin) hresolve
    have htarget : Plan.checkTarget (.builtin op) field r.type declared = .ok () := by
      simp only [Plan.checkTarget, hnull, Test.misuse?]
    rw [hkind] at hplan
    replace hplan := hplan.trans (congrArg (Except.map _) htarget)
    have hcompile := (compile_builtin_eq_ok hleaf hname hbuiltin).mpr
      ⟨_, [], hplan, LeafPlan.values_of_isNull hnull, rfl⟩
    exact ⟨⟨_, options.coercer⟩, build_eq_ok.mpr ⟨hcompile, rfl⟩⟩

-- A leaf that asks for null compiles where its kind fits the field. Unless its path ends at a
-- dynamic place, it accepts the conforming records in which the path comes to a place that is null,
-- or, where it is negated, the others. That the schema decides some of these tests makes no
-- difference.
theorem null_test_of_reached (hnull : op.test = .isNull) (hdynamic : r.type ≠ .dynamic) :
    ((∃ filter, build record options (some leaf) = .ok filter) ↔
      ∃ declared, leaf.type.bind Kind.read = some declared ∧
        r.checkKind field declared = .ok ()) ∧
    ∀ filter, build record options (some leaf) = .ok filter → ∀ members indexed,
      Conforms record.catalog (.object record.root) (.record members indexed) →
        filter.evaluate (.record members indexed) =
          .ok (op.isNegated !=
            (record.reached field (.record members indexed)).any (·.datum.isNull)) := by
  refine ⟨exists_null_test_iff hleaf hname hbuiltin hfield hresolve hnull, ?_⟩
  intro filter h members indexed hconforms
  obtain ⟨hcompile, hcoercer⟩ := build_eq_ok.mp h
  obtain ⟨plan, values, hplan, hvalues, hcondition⟩ :=
    (compile_builtin_eq_ok hleaf hname hbuiltin).mp hcompile
  obtain rfl := Except.ok.inj ((LeafPlan.values_of_isNull hnull).symm.trans hvalues)
  obtain ⟨hplanField, -, -, hplanResolve, -⟩ := Plan.ofLeaf_eq_ok hplan
  obtain rfl : field = plan.field := Option.some.inj (hfield.symm.trans hplanField)
  obtain rfl : r = plan.resolution := Except.ok.inj (hresolve.symm.trans hplanResolve)
  have heval : (plan.positive op.test []).eval options.coercer (.record members indexed) =
      .ok ((plan.resolution.places (.record members indexed)).any (·.datum.isNull)) := by
    rw [hnull]
    exact Resolution.eval_build_isNull hresolve hdynamic (LeafPlan.string_of_fold hplan) hconforms
  rw [evaluate, hcoercer, ← hcondition, Resolution.reached_eq_places hresolve]
  cases op.isNegated with
  | true =>
      simp only [if_true, Condition.eval_negate, heval, Bool.true_bne]
      rfl
  | false =>
      simp only [Bool.false_eq_true, if_false, Bool.false_bne]
      exact heval

end Filter

end Leaf

namespace Filter

private def libraries : RecordType :=
  ⟨[⟨"Library", [("name", .scalar .string false), ("branches", .list (.list (.object 0))),
      ("counts", .object 1)], none⟩,
    ⟨"Counts", [], some ("Item", .scalar .long false)⟩], 0⟩

private def withCounts : Options := { useIndexer := true }

private def library (name : String) (branches counts : Datum) : Datum :=
  .record [("name", .scalar (.string name)), ("branches", branches), ("counts", counts)] []

private def counted (key : String) : Datum :=
  .record [] [(key, .scalar (.long 3))]

private def central : Datum :=
  library "Central" (.list [.list [library "North" .null (counted "maps"),
    library "South" .null (counted "books")]]) .null

private theorem conforms_central :
    Conforms libraries.catalog (.object libraries.root) central := by
  have hcounted (key : String) : Conforms libraries.catalog (.object 1) (counted key) := by
    refine .object nofun fun name type hindexer other datum hdatum => ?_
    cases hindexer
    obtain ⟨before, after, hentry, -⟩ := List.lookup_eq_some_iff.mp hdatum
    obtain ⟨-, rfl⟩ : other = key ∧ datum = .scalar (.long 3) := by
      have hmem : (other, datum) ∈ [(key, Datum.scalar (.long 3))] := by simp [hentry]
      simpa using hmem
    exact .scalar rfl
  have hlibrary (name : String) {branches counts : Datum}
      (hbranches : Conforms libraries.catalog (.list (.list (.object 0))) branches)
      (hcounts : Conforms libraries.catalog (.object 1) counts) :
      Conforms libraries.catalog (.object 0) (library name branches counts) := by
    refine .of_fields (List.forall_mem_cons.mpr ⟨.scalar rfl, ?_⟩) rfl
    exact List.forall_mem_cons.mpr ⟨hbranches, List.forall_mem_singleton.mpr hcounts⟩
  refine hlibrary _ (.list (List.forall_mem_singleton.mpr (.list ?_))) (.null rfl)
  refine List.forall_mem_cons.mpr ⟨hlibrary _ (.null rfl) (hcounted _), ?_⟩
  exact List.forall_mem_singleton.mpr (hlibrary _ (.null rfl) (hcounted _))

private def named : Rule := .leaf "name" "is_not_null" "string" none

private def booksUncounted : Rule := .leaf "branches.counts.books" "is_null" "long" none

-- The first test is constant. The second asks two branches, and one of them has no such count.
theorem null_tests_of_central :
    (∃ filter, build libraries withCounts (some named) = .ok filter ∧
      filter.matchesAll = true ∧ filter.evaluate central = .ok true) ∧
    ∃ filter, build libraries withCounts (some booksUncounted) = .ok filter ∧
      filter.evaluate central = .ok true := by
  have hname : Resolution.resolve libraries withCounts.toSettings "name" =
      .ok ⟨[], [.member "name"], .scalar .string false, false⟩ := by
    decide +kernel
  have hbooks : Resolution.resolve libraries withCounts.toSettings "branches.counts.books" =
      .ok ⟨[[.member "branches"], []], [.member "counts", .index "Item" "books"],
        .scalar .long false, true⟩ := by
    decide +kernel
  constructor
  · obtain ⟨hbuilds, haccepts⟩ := null_test_of_reached (show named.isLeaf = true from rfl)
      (show named.operator = some Operator.isNotNull.name from rfl) rfl rfl hname rfl (by decide)
    obtain ⟨filter, h⟩ := hbuilds.mpr ⟨.string, by decide +kernel, rfl⟩
    have hconstant : (build libraries withCounts (some named)).map matchesAll = .ok true := by
      decide +kernel
    rw [h] at hconstant
    exact ⟨filter, h, Except.ok.inj hconstant,
      (haccepts filter h _ _ conforms_central).trans (by decide +kernel)⟩
  · obtain ⟨hbuilds, haccepts⟩ := null_test_of_reached (show booksUncounted.isLeaf = true from rfl)
      (show booksUncounted.operator = some Operator.isNull.name from rfl) rfl rfl hbooks rfl
      (by decide)
    obtain ⟨filter, h⟩ := hbuilds.mpr ⟨.long, by decide +kernel, rfl⟩
    exact ⟨filter, h, (haccepts filter h _ _ conforms_central).trans (by decide +kernel)⟩

end Filter

end Sieve

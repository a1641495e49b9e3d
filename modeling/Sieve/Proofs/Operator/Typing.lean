import Sieve.Operator.Builtin
import Sieve.Proofs.Condition.Typing
import Sieve.Proofs.Resolution.Typing

-- The tests that operators build make sense of the places their fields lead to.
namespace Sieve

variable {catalog : Catalog} {words : List String}

namespace Coercer

theorem kind_of_parse {c : Coercer} {token : String} {kind : Kind} {value : Value}
    (h : c.parse token kind = some value) : value.kind = kind := by
  cases kind <;> simp only [parse, Option.map_eq_some_iff, Option.some.injEq] at h
  case string =>
    subst h
    rfl
  all_goals
    obtain ⟨_, -, rfl⟩ := h
    rfl

theorem kind_of_coerce {c : Coercer} {operator field token : String} {kind : Kind} {value : Value}
    (h : c.coerce kind operator field token = .ok value) : value.kind = kind := by
  unfold coerce at h
  split at h
  · rename_i hparse
    cases h
    exact kind_of_parse hparse
  · cases h

theorem kind_of_coerceAll {c : Coercer} {operator field : String} {tokens : List String}
    {kind : Kind} {values : List Value}
    (h : c.coerceAll kind operator field tokens = .ok values) :
    ∀ value ∈ values, value.kind = kind := by
  induction tokens generalizing values with
  | nil =>
      cases h
      simp
  | cons token rest ih =>
      obtain ⟨value, others, hvalue, hothers, rfl⟩ := (Outcome.bind_cons_eq_ok id).mp h
      exact List.forall_mem_cons.mpr ⟨kind_of_coerce hvalue, ih hothers⟩

end Coercer

theorem Value.kind_foldCase (value : Value) : value.foldCase.kind = value.kind := by
  cases value <;> rfl

namespace Condition

variable {type : FieldType}

-- A condition on what lies at the end of a path, asked of an element of each list on the way.
theorem Fits.quantify {condition : Condition} {hops : List FieldPath} {path : FieldPath}
    {last : FieldType} (hreaches : Reaches catalog words type hops path last) (kind : Kind)
    (h : ∀ place, Leads catalog words place path last → condition.Fits catalog words place) :
    (condition.quantify (hops.map fun hop => { path := hop, kind })).Fits catalog words type := by
  induction hreaches with
  | last hpath => exact h _ hpath
  | hop hhop hrest ih => exact .anyElement hhop (ih h)

end Condition

namespace Resolution

variable {r : Resolution} {declared : Kind}

theorem coerce_fieldRef (h : r.type.element ≠ .dynamic) (declared : Kind) (fold : Bool) :
    (r.fieldRef declared fold).coerce = false := by
  simpa [fieldRef, FieldRef.truncated, FieldRef.folded, FieldRef.coerced] using h

-- Where the resolution is of scalars, or of a collection of them, they are read from any place
-- that holds some.
theorem readsScalar_fieldRef {type : FieldType} {path : FieldPath} {kind : Kind} {nullable : Bool}
    (helement : r.type.element = .scalar kind nullable) (haccepts : declared.accepts kind = true)
    (hpath : Leads catalog words type path (.scalar kind nullable)) (fold : Bool) :
    FieldRef.ReadsScalar catalog words type { r.fieldRef declared fold with path } kind where
  leads := ⟨nullable, hpath⟩
  stored := coerce_fieldRef (by rw [helement]; exact nofun) declared fold
  accepts := haccepts
  day := by
    simp [fieldRef, helement, FieldRef.truncated, FieldRef.folded, FieldRef.coerced, and_comm]
  text := by simp [fieldRef, FieldRef.truncated, FieldRef.folded, FieldRef.coerced]

-- The elements of a collection are read like the collection.
theorem elementOf_fieldRef (fold : Bool) :
    Test.elementOf (r.fieldRef declared fold) = { r.fieldRef declared fold with path := [] } := by
  simp [Test.elementOf, fieldRef, FieldRef.element, FieldRef.truncated, FieldRef.folded,
    FieldRef.coerced]

end Resolution

namespace Test

variable {type : FieldType} {field : FieldRef} {kind : Kind} {values : List Value}

-- The test of one value is a comparison with some of the literals, unless there are too few.
theorem onValue_induction {motive : Condition → Prop} {test : Test}
    (constant : motive (.constant false))
    (compare : ∀ op, test = .compare op → ∀ value ∈ values, motive (.compare field op value))
    (oneOf : test = .oneOf → motive (.oneOf field values))
    (between : test = .between → ∀ low ∈ values, ∀ high ∈ values, motive (.between field low high))
    (text : ∀ op, test = .text op → ∀ pattern, motive (.text field op pattern))
    (isNull : test = .isNull → motive (.isNull field))
    (isEmpty : test = .isEmpty → motive (.isEmpty field .text)) :
    motive (test.onValue field values) := by
  cases test with
  | compare op =>
      unfold onValue
      dsimp only
      split
      · rename_i value hvalue
        exact compare op rfl value (List.mem_of_getLast? hvalue)
      · exact constant
  | oneOf => exact oneOf rfl
  | between =>
      unfold onValue
      dsimp only
      split
      · rename_i high low rest hreverse
        have hmem (value : Value) (hvalue : value ∈ high :: low :: rest) : value ∈ values :=
          List.mem_reverse.mp (hreverse ▸ hvalue)
        exact between rfl low (hmem low (.tail _ (.head _))) high (hmem high (.head _))
      · exact constant
  | text op =>
      unfold onValue
      dsimp only
      split
      · exact text op rfl _
      · exact text op rfl _
      · exact constant
  | isNull => exact isNull rfl
  | isEmpty => exact isEmpty rfl

theorem fits_onValue (test : Test) (hnotEqual : test ≠ .compare .notEqual)
    (hnull : test ≠ .isNull) (h : field.ReadsScalar catalog words type kind)
    (hvalues : ∀ value ∈ values, value.kind = field.kind) :
    (test.onValue field values).Fits catalog words type := by
  apply onValue_induction
  case constant => exact .constant false
  case compare =>
    rintro op rfl value hvalue
    refine .compare h ?_ (hvalues value hvalue)
    rintro rfl
    exact hnotEqual rfl
  case oneOf => exact fun _ => .oneOf h hvalues
  case between =>
    exact fun _ low hlow high hhigh => .between h (hvalues low hlow) (hvalues high hhigh)
  case text => exact fun _ _ _ => .text h
  case isNull => exact fun h => absurd h hnull
  case isEmpty => exact fun _ => .isEmptyText h

-- Tests of values are asked of a field, or of the elements of a collection.
theorem build_of_value {test : Test} (hnull : test ≠ .isNull) (hempty : test ≠ .isEmpty)
    (isCollection nullable : Bool) :
    test.build field isCollection nullable values =
      if isCollection then .anyElement field (test.onValue (elementOf field) values)
      else test.onValue field values := by
  cases test with
  | isNull => exact absurd rfl hnull
  | isEmpty => exact absurd rfl hempty
  | _ => rfl

theorem isScalar_of_misuse? {test : Test} {declared : Kind} (hnull : test ≠ .isNull)
    (hempty : test ≠ .isEmpty) (h : test.misuse? type declared = none) :
    isScalar type.element = true := by
  by_contra hscalar
  cases test <;> simp_all [misuse?]

section Build

variable {place : FieldType} {r : Resolution} {declared : Kind}
  (hpath : Leads catalog words place r.path r.type) (hdynamic : r.type.element ≠ .dynamic)
  (hkind : ∀ kind nullable, r.type.element = .scalar kind nullable → declared.accepts kind = true)
  (hvalues : ∀ value ∈ values, value.kind = declared)

include hpath hdynamic hkind hvalues

-- A test of values, or of the elements of a collection.
theorem fits_onElement (test : Test) (hnotEqual : test ≠ .compare .notEqual)
    (hnull : test ≠ .isNull) (hscalar : isScalar r.type.element = true) (fold : Bool) :
    (if r.type.isCollection then
      Condition.anyElement (r.fieldRef declared fold)
        (test.onValue (elementOf (r.fieldRef declared fold)) values)
    else test.onValue (r.fieldRef declared fold) values).Fits catalog words place := by
  obtain ⟨kind, nullable, helement⟩ : ∃ kind nullable, r.type.element = .scalar kind nullable := by
    cases helement : r.type.element with
    | scalar kind nullable => exact ⟨kind, nullable, rfl⟩
    | dynamic => exact absurd helement hdynamic
    | _ =>
        rw [helement] at hscalar
        cases hscalar
  have haccepts := hkind kind nullable helement
  cases htype : r.type with
  | list element =>
      have hlist : element = .scalar kind nullable := by rw [← helement, htype]; rfl
      rw [htype] at hpath
      refine .anyElement hpath ?_
      rw [hlist, Resolution.elementOf_fieldRef]
      exact fits_onValue test hnotEqual hnull
        (Resolution.readsScalar_fieldRef helement haccepts .here fold) hvalues
  | scalar kind' nullable' =>
      rw [htype] at helement hpath
      cases helement
      exact fits_onValue test hnotEqual hnull
        (Resolution.readsScalar_fieldRef (by rw [htype]; rfl) haccepts hpath fold) hvalues
  | _ =>
      rw [htype] at helement
      cases helement

theorem fits_build (test : Test) (hnotEqual : test ≠ .compare .notEqual) (hne : r.path ≠ [])
    (hmisuse : test.misuse? r.type declared = none) (fold : Bool) :
    (test.build (r.fieldRef declared fold) r.type.isCollection r.nullable values).Fits
      catalog words place := by
  have hstored := Resolution.coerce_fieldRef hdynamic declared fold
  cases test with
  | isNull =>
      unfold build
      dsimp only
      split
      · exact .isNull hpath hne hstored
      · exact .constant false
  | isEmpty =>
      unfold build
      dsimp only
      cases htype : r.type with
      | list element => exact .isEmptyCollection (htype ▸ hpath) hstored
      | scalar kind nullable =>
          rw [htype] at hpath
          have helement : r.type.element = .scalar kind nullable := by rw [htype]; rfl
          exact .isEmptyText (Resolution.readsScalar_fieldRef helement
            (hkind kind nullable helement) hpath fold)
      | dynamic => exact absurd (by rw [htype]; rfl) hdynamic
      | _ =>
          rw [htype] at hmisuse
          cases hmisuse
  | _ =>
      have hscalar := isScalar_of_misuse? (by simp) (by simp) hmisuse
      rw [build_of_value (by simp) (by simp)]
      exact fits_onElement hpath hdynamic hkind hvalues _ hnotEqual (by simp) hscalar fold

end Build

end Test

theorem Operator.test_ne (op : Operator) : op.test ≠ .compare .notEqual := by
  cases op <;> decide

end Sieve

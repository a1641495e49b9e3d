import Sieve.Proofs.Plan.Comparability
import Sieve.Proofs.Plan.Testing

-- The operators that compare values go together: with one literal they all speak of one order, and
-- a list of literals is asked for as its members are.
namespace Sieve

variable {record : RecordType} {options : Options} {leaf : Rule} {op : Operator}

namespace Place

variable {c : Coercer} {declared : Kind} {fold : Bool}

-- What lies in a place is read alike whichever operator asks for it, the error aside.
theorem read_eq_ok_of_operator {first second : String} {place : Place} {stored : Datum}
    (h : place.read c first declared fold = .ok stored) :
    place.read c second declared fold = .ok stored := by
  by_cases hdynamic : place.type.element = .dynamic
  · simp only [read, hdynamic, if_true] at h ⊢
    obtain ⟨datum, hdatum, hstored⟩ := Outcome.bind_eq_ok.mp h
    refine Outcome.bind_eq_ok.mpr ⟨datum, ?_, hstored⟩
    exact Outcome.mapError_eq_ok.mpr (Outcome.mapError_eq_ok.mp hdatum)
  · simp only [read, hdynamic, if_false] at h ⊢
    exact h

-- A search for several values finds one exactly if the search for one of them does. A place that
-- cannot be read ends all of these searches alike.
theorem anyM_ask_oneOf {values : List Value} {places : List Place} :
    places.anyM (ask c .oneOf declared fold values) = .ok true ↔
      ∃ value ∈ values, places.anyM (ask c .equal declared fold [value]) = .ok true := by
  have hask {place : Place} {b : Bool} (op : Operator) (values : List Value) :
      place.ask c op declared fold values = .ok b ↔ ∃ stored,
        place.read c "equal" declared fold = .ok stored ∧
          op.test.accepts values place.type stored = b := by
    rw [ask, Outcome.map_eq_ok]
    exact exists_congr fun stored =>
      and_congr_left' ⟨read_eq_ok_of_operator, read_eq_ok_of_operator⟩
  have hread {place : Place} (op : Operator) (values : List Value) :
      (∃ b, place.ask c op declared fold values = .ok b) ↔
        ∃ stored, place.read c "equal" declared fold = .ok stored := by
    simp only [hask]
    rw [exists_comm]
    simp
  simp only [Outcome.anyM_eq_true_iff, hread]
  simp only [hask, Operator.test, Test.accepts, List.any_eq_true]
  constructor
  · rintro ⟨before, place, after, hplaces, hbefore, stored, hstored, value, hvalue, hpasses⟩
    exact ⟨value, hvalue, before, place, after, hplaces, hbefore, stored, hstored, hpasses⟩
  · rintro ⟨value, hvalue, before, place, after, hplaces, hbefore, stored, hstored, hpasses⟩
    exact ⟨before, place, after, hplaces, hbefore, stored, hstored, value, hvalue, hpasses⟩

end Place

theorem Datum.passes_of_compare? {stored : Datum} {literal : Value} {order : Ordering}
    (h : stored.compare? literal = some order) (comparison : Comparison) :
    stored.passes comparison literal = comparison.holds order := by
  rw [passes, h]

namespace Resolution

variable {r : Resolution} {declared kind : Kind} {nullable : Bool}

-- A scalar that is not in a list is the one place that is asked, and it is read as it is.
theorem anyM_ask_scalar {c : Coercer} {fold : Bool} {values : List Value} (hhops : r.hops = [])
    (htype : r.type = .scalar kind nullable) (datum : Datum) :
    ((r.places datum).flatMap Place.opened).anyM (Place.ask c op declared fold values) =
      .ok (op.test.accepts values r.type
        (if fold then (datum.walk r.path).foldCase else datum.walk r.path)) := by
  have hplaces : (r.places datum).flatMap Place.opened =
      [⟨.scalar kind nullable, r.path, datum.walk r.path⟩] := by
    rw [places, hhops, htype]
    rfl
  rw [hplaces, Outcome.anyM_singleton, htype]
  rfl

-- What a conforming record holds in such a place stands somewhere relative to each literal of the
-- declared kind, nothing and what is no number aside.
theorem exists_order {field : String} {datum : Datum} {literal : Value} (fold : Bool)
    (hresolve : resolve record options.toSettings field = .ok r)
    (hkind : r.checkKind field declared = .ok ()) (hhops : r.hops = [])
    (htype : r.type = .scalar kind nullable) (hliteral : literal.kind = declared)
    (hliteralNaN : literal.isNaN = false)
    (hconforms : Conforms record.catalog (.object record.root) datum)
    (hnull : datum.walk r.path ≠ .null) (hnan : (datum.walk r.path).isNaN = false) :
    ∃ order, (if fold then (datum.walk r.path).foldCase else datum.walk r.path).compare? literal =
      some order := by
  have hholds : Holds record.catalog r.type (datum.walk r.path) := by
    refine (reaches_of_resolve hresolve).1.holds (.inr hconforms) datum ?_
    rw [hhops]
    exact List.mem_singleton.mpr rfl
  obtain ⟨value, hvalue, hstored⟩ : ∃ value : Value, value.kind = kind ∧
      datum.walk r.path = .scalar value := by
    rw [htype] at hholds
    generalize datum.walk r.path = stored at hholds hnull
    rcases hholds with rfl | hholds
    · exact absurd rfl hnull
    · cases hholds with
      | null => exact absurd rfl hnull
      | scalar h => exact ⟨_, h, rfl⟩
  have haccepts : declared.accepts value.kind = true := by
    rw [hvalue]
    exact checkKind_eq_ok hkind (show r.type.element = .scalar kind nullable by rw [htype]; rfl)
  rw [hstored] at hnan ⊢
  apply Option.ne_none_iff_exists'.mp
  have hcompare (stored : Value) (hstoredKind : stored.kind = value.kind)
      (hstoredNaN : stored.isNaN = false) : stored.compare? literal ≠ none := by
    rw [ne_eq, Value.compare?_eq_none_iff, hliteral, hstoredKind, haccepts, hstoredNaN,
      hliteralNaN]
    decide
  cases fold with
  | false => exact hcompare value rfl hnan
  | true =>
      refine hcompare value.foldCase (Value.kind_foldCase value) ?_
      cases value <;> exact hnan

end Resolution

namespace Operator

-- The one of three comparisons that a value passes which stands so relative to a literal.
def ofOrdering : Ordering → Operator
  | .lt => less
  | .eq => equal
  | .gt => greater

theorem existsUnique_of_holds {accepts : Operator → Prop} {order : Ordering}
    (h : ∀ op ∈ comparing, ∀ comparison, op.test = .compare comparison →
      (accepts op ↔ comparison.holds order = true)) :
    ∃! op, op ∈ [less, equal, greater] ∧ accepts op := by
  have hless := h less (by decide) .less rfl
  have hequal := h equal (by decide) .equal rfl
  have hgreater := h greater (by decide) .greater rfl
  refine ⟨ofOrdering order, ?_, ?_⟩
  · cases order with
    | lt => exact ⟨by decide, hless.mpr rfl⟩
    | eq => exact ⟨by decide, hequal.mpr rfl⟩
    | gt => exact ⟨by decide, hgreater.mpr rfl⟩
  · rintro op ⟨hmem, haccepts⟩
    obtain rfl | rfl | rfl : op = less ∨ op = equal ∨ op = greater := by simpa using hmem
    · have hholds := hless.mp haccepts
      cases order <;> first | rfl | cases hholds
    · have hholds := hequal.mp haccepts
      cases order <;> first | rfl | cases hholds
    · have hholds := hgreater.mp haccepts
      cases order <;> first | rfl | cases hholds

end Operator

-- A leaf whose plan fits all of the operators.
section Leaf

variable {plan : LeafPlan} {raw : RawValue} {datum : Datum} (hleaf : leaf.isLeaf = true)
  (hbuiltin : ∀ op ∈ Operator.comparing, options.operator? op.name = none)
  (hplan : ∀ op ∈ Operator.comparing, ∀ raw,
    Plan.ofLeaf record options (leaf.testing op raw) = .ok { plan with binding := .builtin op })
include hleaf hbuiltin hplan

section OneOf

variable {items : List RawValue} (hne : items ≠ [])
  (hitems : ∀ item ∈ items, Compiles record options (leaf.testing .equal item))
include hne hitems

-- Where each member of a list can be asked for, the list can, with the same values.
theorem LeafPlan.values_oneOf_filterMap :
    plan.values .oneOf options.toSettings options.coercer (some (.list items)) =
      .ok (items.filterMap (options.coercer.single? plan.declared plan.fold)) := by
  refine values_oneOf hne ?_
  clear hne
  induction items with
  | nil => exact .nil
  | cons item rest ih =>
      rw [List.forall_mem_cons] at hitems
      obtain ⟨values, hvalues⟩ := (compiles_testing hleaf hbuiltin (by decide)
        (hplan .equal (by decide) item)).mp hitems.1
      obtain ⟨value, hvalue, -⟩ := (values_compare_eq_ok (by decide) rfl).mp hvalues
      change options.coercer.single? plan.declared plan.fold item = some value at hvalue
      rw [List.filterMap_cons_some hvalue]
      exact .cons hvalue (ih hitems.2)

theorem compiles_oneOf : Compiles record options (leaf.testing .oneOf (.list items)) := by
  have hvalues := LeafPlan.values_oneOf_filterMap hleaf hbuiltin hplan hne hitems
  exact (compiles_testing hleaf hbuiltin (by decide)
    (hplan .oneOf (by decide) (.list items))).mpr ⟨_, hvalues⟩

theorem accepts_oneOf :
    Accepts record options (leaf.testing .oneOf (.list items)) datum ↔
      ∃ item ∈ items, Accepts record options (leaf.testing .equal item) datum := by
  have hvalues := LeafPlan.values_oneOf_filterMap hleaf hbuiltin hplan hne hitems
  have hequal (item : RawValue) :
      Accepts record options (leaf.testing .equal item) datum ↔ _ :=
    accepts_compare hleaf hbuiltin (by decide) rfl (hplan .equal (by decide) item)
  simp only [hequal]
  refine (accepts_testing hleaf hbuiltin (by decide)
    (hplan .oneOf (by decide) (.list items))).trans ?_
  constructor
  · rintro ⟨values, hread, hpasses⟩
    obtain rfl := Except.ok.inj (hvalues.symm.trans hread)
    obtain ⟨value, hvalue, hpasses⟩ := Place.anyM_ask_oneOf.mp hpasses
    obtain ⟨item, hitem, hvalue⟩ := List.mem_filterMap.mp hvalue
    exact ⟨item, hitem, value, hvalue, hpasses⟩
  · rintro ⟨item, hitem, value, hvalue, hpasses⟩
    refine ⟨_, hvalues, Place.anyM_ask_oneOf.mpr ⟨value, ?_, hpasses⟩⟩
    exact List.mem_filterMap.mpr ⟨item, hitem, hvalue⟩

end OneOf

section Scalar

variable {kind : Kind} {nullable : Bool} (hhops : plan.resolution.hops = [])
  (htype : plan.resolution.type = .scalar kind nullable)
include hhops htype

-- What a leaf reads in a record that has one value where its path leads.
def LeafPlan.stored (plan : LeafPlan) (datum : Datum) : Datum :=
  if plan.fold then (datum.walk plan.resolution.path).foldCase
  else datum.walk plan.resolution.path

theorem accepts_compare_scalar {comparison : Comparison} (hop : op ∈ Operator.comparing)
    (htest : op.test = .compare comparison) :
    Accepts record options (leaf.testing op raw) datum ↔
      ∃ value, options.coercer.single? plan.declared plan.fold raw = some value ∧
        (plan.stored datum).passes comparison value = true := by
  refine (accepts_compare hleaf hbuiltin hop htest (hplan op hop raw)).trans ?_
  simp only [Resolution.anyM_ask_scalar hhops htype, htest, Except.ok.injEq]
  exact Iff.rfl

theorem accepts_between_scalar {low high : RawValue} {value : Value}
    (hlow : options.coercer.single? plan.declared plan.fold low = some value) :
    Accepts record options (leaf.testing .between (.list [low, high])) datum ↔
      (plan.stored datum).passes .greaterOrEqual value = true ∧
        Accepts record options (leaf.testing .lessOrEqual high) datum := by
  rw [accepts_compare_scalar hleaf hbuiltin hplan hhops htype
    (show Operator.lessOrEqual ∈ Operator.comparing by decide) rfl]
  refine (accepts_testing hleaf hbuiltin (by decide)
    (hplan .between (by decide) (.list [low, high]))).trans ?_
  simp only [Resolution.anyM_ask_scalar hhops htype, Except.ok.injEq]
  constructor
  · rintro ⟨_, hvalues, hpasses⟩
    obtain ⟨highValue, hhigh, rfl⟩ := (LeafPlan.values_between_eq_ok hlow).mp hvalues
    have hpasses := Bool.and_eq_true_iff.mp hpasses
    exact ⟨hpasses.1, highValue, hhigh, hpasses.2⟩
  · rintro ⟨hfirst, highValue, hhigh, hsecond⟩
    exact ⟨_, (LeafPlan.values_between_eq_ok hlow).mpr ⟨highValue, hhigh, rfl⟩,
      Bool.and_eq_true_iff.mpr ⟨hfirst, hsecond⟩⟩

-- Where the stored value stands relative to the literal decides about every comparison.
theorem exists_order_accepts {field : String} {value : Value}
    (hresolve : Resolution.resolve record options.toSettings field = .ok plan.resolution)
    (hkind : plan.resolution.checkKind field plan.declared = .ok ())
    (hvalue : options.coercer.single? plan.declared plan.fold raw = some value)
    (hnan : value.isNaN = false) (hconforms : Conforms record.catalog (.object record.root) datum)
    (hnull : datum.walk plan.resolution.path ≠ .null)
    (hstoredNaN : (datum.walk plan.resolution.path).isNaN = false) :
    ∃ order, ∀ op ∈ Operator.comparing, ∀ comparison, op.test = .compare comparison →
      (Accepts record options (leaf.testing op raw) datum ↔ comparison.holds order = true) := by
  obtain ⟨token, -, htoken⟩ := Coercer.single?_eq_some.mp hvalue
  obtain ⟨order, horder⟩ := Resolution.exists_order plan.fold hresolve hkind hhops htype
    (Coercer.kind_of_literal? htoken) hnan hconforms hnull hstoredNaN
  have hpasses (comparison : Comparison) :
      (plan.stored datum).passes comparison value = comparison.holds order :=
    Datum.passes_of_compare? horder comparison
  refine ⟨order, fun op hop comparison htest => ?_⟩
  rw [accepts_compare_scalar hleaf hbuiltin hplan hhops htype hop htest, hvalue, ← hpasses]
  simp

end Scalar

end Leaf

theorem not_accepts_oneOf_nil {datum : Datum} (hleaf : leaf.isLeaf = true)
    (hbuiltin : ∀ op ∈ Operator.comparing, options.operator? op.name = none) :
    ¬ Accepts record options (leaf.testing .oneOf (.list [])) datum := by
  rintro ⟨filter, hfilter, -⟩
  obtain ⟨plan, values, -, hvalues, -⟩ := (compile_testing_eq_ok hleaf hbuiltin (by decide)).mp
    (Filter.build_eq_ok.mp hfilter).1
  obtain ⟨harity, -⟩ := (LeafPlan.values_eq_ok_iff_forall₂ (by decide)).mp hvalues
  cases harity

-- The operators that compare values go together. On a scalar that is not in a list, and with a
-- number where one is asked for, exactly one of less, equal and greater lets a record pass, the two
-- other orderings are what greater and less leave over, and a range is the two of them with one
-- limit each. On any field, a list of literals is asked for as its members are.
theorem comparisons_cohere {field : String} {declared : Kind} {r : Resolution}
    (hleaf : leaf.isLeaf = true) (hfield : leaf.field = some field)
    (hdeclared : leaf.type.bind Kind.read = some declared)
    (hbuiltin : ∀ op ∈ Operator.comparing, options.operator? op.name = none)
    (hresolve : Resolution.resolve record options.toSettings field = .ok r) :
    (∀ kind nullable, r.hops = [] → r.type = .scalar kind nullable →
      ∀ a value, Compiles record options (leaf.testing .equal a) →
        options.coercer.single? declared (options.folds declared) a = some value →
        value.isNaN = false →
        (∀ op ∈ [Operator.less, .lessOrEqual, .greater, .greaterOrEqual],
          Compiles record options (leaf.testing op a)) ∧
        ∀ datum, Conforms record.catalog (.object record.root) datum →
          datum.walk r.path ≠ .null → (datum.walk r.path).isNaN = false →
          (∃! op, op ∈ [Operator.less, .equal, .greater] ∧
            Accepts record options (leaf.testing op a) datum) ∧
          (Accepts record options (leaf.testing .lessOrEqual a) datum ↔
            ¬ Accepts record options (leaf.testing .greater a) datum) ∧
          (Accepts record options (leaf.testing .greaterOrEqual a) datum ↔
            ¬ Accepts record options (leaf.testing .less a) datum) ∧
          ∀ b, Accepts record options (leaf.testing .between (.list [a, b])) datum ↔
            Accepts record options (leaf.testing .greaterOrEqual a) datum ∧
              Accepts record options (leaf.testing .lessOrEqual b) datum) ∧
    ∀ items, (∀ item ∈ items, Compiles record options (leaf.testing .equal item)) →
      (items ≠ [] → Compiles record options (leaf.testing .oneOf (.list items))) ∧
      ∀ datum, Accepts record options (leaf.testing .oneOf (.list items)) datum ↔
        ∃ item ∈ items, Accepts record options (leaf.testing .equal item) datum := by
  refine ⟨fun kind nullable hhops htype a value hcompiles hvalue hnan => ?_, fun items hitems => ?_⟩
  · obtain ⟨plan, hequal⟩ := Plan.exists_ofLeaf_testing hleaf hbuiltin (by decide) hcompiles
    obtain ⟨rfl, rfl, hfold, hkind⟩ :=
      Plan.eq_of_ofLeaf_testing hfield hdeclared hresolve hequal
    rw [← hfold] at hvalue
    have hplan (op : Operator) (hop : op ∈ Operator.comparing) :=
      Plan.ofLeaf_testing (by decide) hop hbuiltin hequal
    refine ⟨fun op hop => ?_, fun datum hconforms hnull hstoredNaN => ?_⟩
    · obtain ⟨hmem, comparison, htest⟩ : op ∈ Operator.comparing ∧
          ∃ comparison, op.test = .compare comparison := by
        revert hop
        cases op <;> first | exact fun _ => ⟨by decide, _, rfl⟩ | exact fun h => absurd h (by decide)
      refine (compiles_testing hleaf hbuiltin hmem (hplan op hmem a)).mpr ⟨[value], ?_⟩
      exact (LeafPlan.values_compare_eq_ok hmem htest).mpr ⟨value, hvalue, rfl⟩
    · obtain ⟨order, horder⟩ := exists_order_accepts hleaf hbuiltin hplan hhops htype hresolve hkind
        hvalue hnan hconforms hnull hstoredNaN
      refine ⟨Operator.existsUnique_of_holds horder, ?_, ?_, fun b => ?_⟩
      · rw [horder _ (by decide) .lessOrEqual rfl, horder _ (by decide) .greater rfl]
        cases order <;> decide
      · rw [horder _ (by decide) .greaterOrEqual rfl, horder _ (by decide) .less rfl]
        cases order <;> decide
      · rw [accepts_between_scalar hleaf hbuiltin hplan hhops htype hvalue,
          accepts_compare_scalar hleaf hbuiltin hplan hhops htype
            (show Operator.greaterOrEqual ∈ Operator.comparing by decide) rfl, hvalue]
        simp
  · cases items with
    | nil =>
        refine ⟨fun hne => absurd rfl hne, fun datum => ?_⟩
        simp [not_accepts_oneOf_nil hleaf hbuiltin]
    | cons first rest =>
        obtain ⟨plan, hequal⟩ := Plan.exists_ofLeaf_testing hleaf hbuiltin (by decide)
          (hitems first (.head _))
        have hplan (op : Operator) (hop : op ∈ Operator.comparing) :=
          Plan.ofLeaf_testing (by decide) hop hbuiltin hequal
        have hne := List.cons_ne_nil first rest
        exact ⟨fun _ => compiles_oneOf hleaf hbuiltin hplan hne hitems,
          fun datum => accepts_oneOf hleaf hbuiltin hplan hne hitems⟩

private def berths : RecordType :=
  ⟨[⟨"Berth", [("stay", .object 1), ("holds", .list (.object 2))], none⟩,
    ⟨"Stay", [("arrived", .scalar .datetime true)], none⟩,
    ⟨"Hold", [("weight", .scalar .double false)], none⟩], 0⟩

private def arrival : Rule := .leaf "stay.arrived" "equal" "date" none

private def weight : Rule := .leaf "holds.weight" "in" "integer" none

private def lateEvening : DateTime := ⟨⟨2024, 3, 4, by decide⟩, 22, 30, 0, 0, by decide⟩

private def moored : Datum :=
  .record [("stay", .record [("arrived", .scalar (.datetime lateEvening))] []),
    ("holds", .list [.record [("weight", .scalar (.double 7))] []])] []

private theorem conforms_moored : Conforms berths.catalog (.object berths.root) moored := by
  refine .of_fields (List.forall_mem_cons.mpr ⟨?_, List.forall_mem_singleton.mpr ?_⟩) rfl
  · exact .of_fields (List.forall_mem_singleton.mpr (.scalar rfl)) rfl
  · refine .list (List.forall_mem_singleton.mpr ?_)
    exact .of_fields (List.forall_mem_singleton.mpr (.scalar rfl)) rfl

private def stayArrived : Resolution where
  hops := []
  path := [.member "stay", .member "arrived"]
  type := .scalar .datetime true
  nullable := true

private def holdsWeight : Resolution where
  hops := [[.member "holds"]]
  path := [.member "weight"]
  type := .scalar .double false
  nullable := true

-- A time in the late evening, held against days; and a double in a list, held against integers.
theorem moored_by_day_and_weight :
    (∃! op, op ∈ [Operator.less, .equal, .greater] ∧
      Accepts berths {} (arrival.testing op (.text "2024-03-04")) moored) ∧
    Accepts berths {} (arrival.testing .between
      (.list [.text "2024-03-04", .text "2024-03-05 06:00:00"])) moored ∧
    Accepts berths {} (weight.testing .oneOf (.list [.text "-2", .int 7])) moored := by
  have hbuiltin : ∀ op ∈ Operator.comparing, ({} : Options).operator? op.name = none :=
    fun _ _ => rfl
  obtain ⟨hday, -⟩ := comparisons_cohere (show arrival.isLeaf = true from rfl) rfl
    (show arrival.type.bind Kind.read = some .date by decide +kernel) hbuiltin
    (show Resolution.resolve berths ({} : Options).toSettings "stay.arrived" = .ok stayArrived by
      decide +kernel)
  obtain ⟨-, hlist⟩ := comparisons_cohere (show weight.isLeaf = true from rfl) rfl
    (show weight.type.bind Kind.read = some .integer by decide +kernel) hbuiltin
    (show Resolution.resolve berths ({} : Options).toSettings "holds.weight" = .ok holdsWeight by
      decide +kernel)
  have hcompiles {rule : Rule} (h : (compile berths {} (some rule)).isOk = true) :
      Compiles berths {} rule := Outcome.exists_ok_of_isOk h
  have hread : ({} : Options).coercer.single? .date (({} : Options).folds .date)
      (.text "2024-03-04") = some (.date lateEvening.date) := by decide +kernel
  obtain ⟨-, hmoored⟩ := hday .datetime true rfl rfl (.text "2024-03-04") (.date lateEvening.date)
    (hcompiles (by decide +kernel)) hread rfl
  obtain ⟨hone, -, -, hbetween⟩ := hmoored moored conforms_moored nofun rfl
  have hitems : ∀ item ∈ [RawValue.text "-2", .int 7],
      Compiles berths {} (weight.testing .equal item) := by
    simp only [List.forall_mem_cons]
    exact ⟨hcompiles (by decide +kernel), hcompiles (by decide +kernel), nofun⟩
  refine ⟨hone, (hbetween _).mpr ⟨accepts_iff.mpr ?_, accepts_iff.mpr ?_⟩,
    ((hlist _ hitems).2 moored).mpr ⟨.int 7, by simp, accepts_iff.mpr ?_⟩⟩
  · decide +kernel
  · decide +kernel
  · decide +kernel

end Sieve

import Sieve.Proofs.Condition.Failures
import Sieve.Proofs.Plan.Typing

-- Which filters can fail on a record, and at what.
namespace Sieve.Filter

-- A condition fails only at a field that is turned into another kind, none of them a collection that
-- it goes into, and the error names this field and its kind; it fails where the field's datum cannot
-- be turned. So rules with operators of the library, on fields that hold no dynamic values, come to
-- an outcome on every datum whatever its shape, and what is nothing, or of the kind already, is
-- always read, as it is.
theorem failures_come_of_coerced_fields (record : RecordType) (options : Options) :
    (∀ (coercer : Coercer) (condition : Condition) (datum : Datum) (error : CoercionError),
      condition.eval coercer datum = .error error →
        ∃ test ∈ condition.tests, ∃ field, test.field? = some field ∧ field.coerce = true ∧
          error.kind = field.kind ∧ error.field = field.path.render ∧
          ∃ place, (test, place) ∈ condition.asked datum ∧
            coercer.coerceDatum (place.walk field.path) field.kind = .error error.token) ∧
    (∀ (rule : Option Rule) (filter : Filter),
      (∀ leaf ∈ Rule.leavesOf rule.toList, leaf.IsPlain record options) →
      build record options rule = .ok filter → ∀ datum, ∃ b, filter.evaluate datum = .ok b) ∧
    ∀ (coercer : Coercer) (operator : String) (field : FieldRef) (scope : Datum),
      (scope.walk field.path = .null ∨
        ∃ value, scope.walk field.path = .scalar value ∧ value.kind = field.kind) →
      field.read coercer operator scope =
        .ok (if field.fold then (scope.walk field.path).foldCase else scope.walk field.path) := by
  refine ⟨fun coercer condition datum error h => ?_, fun rule filter hplain h datum => ?_,
    fun coercer operator field scope h => ?_⟩
  · obtain ⟨test, place, field, operator, hasked, hfield, hread⟩ := Condition.failsAtTest_of_eval h
    obtain ⟨hcoerce, htoken, hname, hkind, -⟩ := FieldRef.read_eq_error.mp hread
    exact ⟨test, Condition.mem_tests_of_mem_asked hasked, field, hfield, hcoerce, hkind, hname,
      place, hasked, htoken⟩
  · have hfits := fits_of_compile hplain (build_eq_ok.mp h).1
    exact Condition.exists_eval_eq_ok (fun test htest field => hfits.coerce_eq_false htest)
      filter.coercer datum
  · refine FieldRef.read_of_fits (h.imp_right ?_) operator
    rintro ⟨value, hvalue, hkind⟩
    exact ⟨value, hvalue, Coercer.fits_of_kind hkind⟩

private def cupboards : RecordType :=
  ⟨[⟨"Cupboard", [("counts", .list .dynamic), ("label", .scalar .string true)], none⟩], 0⟩

private def sparse : Rule := .leaf "counts" "less" "long" (some (.text "3"))

private def captioned : Rule := .leaf "label" "is_not_empty" "string" none

-- A count in words, and a list where a label should be.
private def frayed : Datum :=
  .record [("counts", .list [.null, .scalar (.long 5), .scalar (.string "few")]),
    ("label", .list [])] []

private def count : FieldRef := { path := [], kind := .long, coerce := true }

-- The count in words is what fails, though the counts before it are read; the label does not.
theorem frayed_cupboard_fails_at_count :
    ∃ few label, build cupboards {} (some sparse) = .ok few ∧
      build cupboards {} (some captioned) = .ok label ∧
      few.evaluate frayed = .error ⟨"less", "it", .long, "few"⟩ ∧
      (∃ test ∈ few.condition.tests, ∃ field, test.field? = some field ∧ field.coerce = true ∧
        field.kind = .long ∧ field.path.render = "it") ∧
      (∃ b, label.evaluate frayed = .ok b) ∧
      count.read {} "less" .null = .ok .null ∧
      count.read {} "less" (.scalar (.long 5)) = .ok (.scalar (.long 5)) := by
  obtain ⟨hfails, hnever, hreads⟩ := failures_come_of_coerced_fields cupboards {}
  have hlabels : ∀ leaf ∈ Rule.leavesOf (some captioned).toList, leaf.IsPlain cupboards {} := by
    have hleaves : Rule.leavesOf (some captioned).toList = [captioned] := rfl
    have hlabel : (Resolution.resolve cupboards {} "label").map (·.type) =
        .ok (.scalar .string true) := by decide +kernel
    rw [hleaves, List.forall_mem_singleton]
    exact .of_type rfl rfl rfl hlabel nofun
  have hfew : Filter.evaluate ⟨.anyElement ⟨[.member "counts"], .long, true, false, false⟩
      (.compare count .less (.long 3)), {}⟩ frayed = .error ⟨"less", "it", .long, "few"⟩ := rfl
  obtain ⟨test, htest, field, hfield, hcoerce, hkind, hname, -⟩ := hfails _ _ _ _ hfew
  refine ⟨_, _, rfl, rfl, hfew, ⟨test, htest, field, hfield, hcoerce, hkind.symm, hname.symm⟩,
    hnever (some captioned) _ hlabels rfl frayed, ?_, ?_⟩
  · exact hreads {} "less" count .null (.inl rfl)
  · exact hreads {} "less" count (.scalar (.long 5)) (.inr ⟨.long 5, rfl, rfl⟩)

end Sieve.Filter

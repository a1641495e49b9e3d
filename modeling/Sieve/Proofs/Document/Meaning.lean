import Sieve.Proofs.Document.Agreement
import Sieve.Proofs.Document.Places
import Sieve.Proofs.Plan.Typing
import Sieve.Proofs.Plan.Verdict

-- Documents select the records that the filters they are made of let pass.
namespace Sieve.Document

-- A filter whose leaves are plain lets a record pass just when its selector holds of the stored
-- form. If no name on a path is one of the store's own, then so says the document in JSON.
theorem selects_stored_iff_evaluate (record : RecordType) (options : Options) (rule : Option Rule)
    (filter : Filter) (selector : Selector)
    (hplain : ∀ leaf ∈ Rule.leavesOf rule.toList, leaf.IsPlain record options)
    (hbuild : Filter.build record options rule = .ok filter)
    (hstorable : ∀ test ∈ filter.condition.tests, ∀ literal ∈ test.literals, literal.Storable)
    (hselector : Selector.ofCondition false filter.condition = .ok selector)
    (datum : Datum) (hdatum : Conforms record.catalog (.object record.root) datum) :
    (selector.holds datum.stored = true ↔ filter.evaluate datum = .ok true) ∧
      ((∀ segment ∈ Rule.segments rule, segment.toList.head? ≠ some '$') →
        (selects selector.toJson datum.stored = true ↔ filter.evaluate datum = .ok true)) := by
  obtain ⟨hcompile, -⟩ := Filter.build_eq_ok.mp hbuild
  have hfits := fits_of_compile hplain hcompile
  have hdots := Rule.dot_notMem_of_mem_segments rule
  have heval : filter.evaluate datum = .ok (selector.holds datum.stored) :=
    Selector.eval_eq_holds hdots hfits hstorable hselector (.inr hdatum)
  have hholds : selector.holds datum.stored = true ↔ filter.evaluate datum = .ok true := by
    rw [heval, Except.ok.injEq]
  refine ⟨hholds, fun hdollar => ?_⟩
  have hsuits : Selector.Suits false selector :=
    Selector.suits_of_ofCondition (Selector.Unreserved.mono hdollar hfits.pathNames_subset)
      (Selector.readsElement_eq_false hfits) hselector
  have hselects : selects selector.toJson datum.stored = selector.holds datum.stored :=
    hsuits.toJson_eq_holds datum.stored
  rw [hselects]
  exact hholds

private def baskets : RecordType where
  catalog := [
    ⟨"Basket", [("paid", .scalar .datetime true), ("lines", .list (.object 1))], none⟩,
    ⟨"Line", [("tags", .list (.scalar .string false))], none⟩]
  root := 0

private def giftless : Rule := .leaf "lines.tags" "not_equal" "string" (some (.text "Gift"))

private def unpaid : Rule := .leaf "paid" "is_null" "datetime" none

private def pending : Rule := .fork .and [giftless, .fork .or [unpaid, {}]]

private def giftlessPlan : LeafPlan where
  field := "lines.tags"
  declared := .string
  binding := .builtin .notEqual
  resolution := ⟨[[.member "lines"]], [.member "tags"], .list (.scalar .string false), true⟩
  fold := true

private def unpaidPlan : LeafPlan where
  field := "paid"
  declared := .datetime
  binding := .builtin .isNull
  resolution := ⟨[], [.member "paid"], .scalar .datetime true, true⟩
  fold := false

private def pendingPlan : Plan :=
  .fork .and [(0, .leaf giftlessPlan), (1, .fork .or [(0, .leaf unpaidPlan)])]

private def pendingFilter : Filter where
  condition :=
    .all [
      .not (.anyElement { path := [.member "lines"], kind := .string }
        (.anyElement { path := [.member "tags"], kind := .string, fold := true }
          (.compare { path := [], kind := .string, fold := true } .equal (.string "gift")))),
      .isNull { path := [.member "paid"], kind := .datetime }]
  coercer := {}

private def pendingSelector : Selector :=
  .all [
    .noneOf (.inField "lines" (.elementMatch (.inField "tags" (.elementMatch
      (.regex ⟨true, "gift", true, true⟩))))),
    .inField "paid" (.compares [(.equal, .null)])]

-- One line has another tag, one has none, and nothing is known of a payment.
private def basket : Datum :=
  .record [("lines", .list [.record [("tags", .list [.scalar (.string "GIFTS")])] [],
    .record [] []])] []

private theorem basket_conforms : Conforms baskets.catalog (.object baskets.root) basket := by
  have hlines : ∀ line ∈ [Datum.record [("tags", .list [.scalar (.string "GIFTS")])] [],
      .record [] []], Conforms baskets.catalog (.object 1) line := by
    rw [List.forall_mem_cons, List.forall_mem_singleton]
    constructor
    · refine .of_fields (List.forall_mem_singleton.mpr ?_) rfl
      exact .list (List.forall_mem_singleton.mpr (.scalar rfl))
    · exact .of_fields (List.forall_mem_singleton.mpr (.null rfl)) rfl
  refine .of_fields (List.forall_mem_cons.mpr ⟨.null rfl, ?_⟩) rfl
  exact List.forall_mem_singleton.mpr (.list hlines)

theorem pendingSelector_selects_basket :
    (∀ leaf ∈ Rule.leavesOf [pending], leaf.IsPlain baskets {}) ∧
      Filter.build baskets {} (some pending) = .ok pendingFilter ∧
      (∀ test ∈ pendingFilter.condition.tests, ∀ literal ∈ test.literals, literal.Storable) ∧
      Selector.ofCondition false pendingFilter.condition = .ok pendingSelector ∧
      Conforms baskets.catalog (.object baskets.root) basket ∧
      (∀ segment ∈ Rule.segments pending, segment.toList.head? ≠ some '$') ∧
      selects pendingSelector.toJson basket.stored = true := by
  have hplain : ∀ leaf ∈ Rule.leavesOf [pending], leaf.IsPlain baskets {} := by
    have hleaves : Rule.leavesOf [pending] = [giftless, unpaid] := rfl
    have hgiftless : Resolution.resolve baskets {} "lines.tags" = .ok giftlessPlan.resolution := rfl
    have hunpaid : Resolution.resolve baskets {} "paid" = .ok unpaidPlan.resolution := rfl
    rw [hleaves, List.forall_mem_cons, List.forall_mem_singleton]
    constructor
    · refine ⟨fun name _ => rfl, ?_⟩
      rintro field ⟨⟩ r hresolve
      obtain rfl := Except.ok.inj (hgiftless.symm.trans hresolve)
      exact nofun
    · refine ⟨fun name _ => rfl, ?_⟩
      rintro field ⟨⟩ r hresolve
      obtain rfl := Except.ok.inj (hunpaid.symm.trans hresolve)
      exact nofun
  have hbuild : Filter.build baskets {} (some pending) = .ok pendingFilter :=
    Filter.build_eq_ok.mpr ⟨(compile_some_eq_ok rfl).mpr ⟨pendingPlan, rfl, rfl⟩, rfl⟩
  have hstorable : ∀ test ∈ pendingFilter.condition.tests, ∀ literal ∈ test.literals,
      literal.Storable := by
    simp [pendingFilter, Condition.tests, Condition.testsOf, Condition.literals, Value.Storable]
  have hselector : Selector.ofCondition false pendingFilter.condition = .ok pendingSelector := rfl
  have hdollar : ∀ segment ∈ Rule.segments pending, segment.toList.head? ≠ some '$' := by
    have hsegments : Rule.segments pending = ["lines", "tags", "paid"] := rfl
    rw [hsegments]
    simp
  refine ⟨hplain, hbuild, hstorable, hselector, basket_conforms, hdollar, ?_⟩
  have h := selects_stored_iff_evaluate baskets {} (some pending) pendingFilter pendingSelector
    hplain hbuild hstorable hselector basket basket_conforms
  exact (h.2 hdollar).mpr rfl

end Sieve.Document

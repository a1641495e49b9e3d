import Sieve.Proofs.Document.Leaves

-- A condition that fits its records is met by those whose stored form its selector holds of.
namespace Sieve.Document.Selector

variable {catalog : Catalog} {words : List String} {coercer : Coercer}

theorem evalAll_ofParts {parts : List Condition} {selectors : List Selector} {datum : Datum}
    (hparts : ∀ part ∈ parts, ∀ selector, ofCondition false part = .ok selector →
      part.eval coercer datum = .ok (selector.holds datum.stored))
    (hselectors : ofParts parts = .ok selectors) :
    Condition.evalAll coercer parts datum = .ok (holdsAll selectors datum.stored) := by
  induction parts generalizing selectors with
  | nil =>
      cases hselectors
      rfl
  | cons part rest ih =>
      rw [List.forall_mem_cons] at hparts
      obtain ⟨selector, others, hselector, hothers, rfl⟩ :=
        (Outcome.bind_cons_eq_ok id).mp hselectors
      rw [Condition.evalAll, hparts.1 selector hselector, ih hparts.2 hothers, id, holdsAll]
      cases selector.holds datum.stored <;> rfl

theorem evalAny_ofParts {parts : List Condition} {selectors : List Selector} {datum : Datum}
    (hparts : ∀ part ∈ parts, ∀ selector, ofCondition false part = .ok selector →
      part.eval coercer datum = .ok (selector.holds datum.stored))
    (hselectors : ofParts parts = .ok selectors) :
    Condition.evalAny coercer parts datum = .ok (holdsAny selectors datum.stored) := by
  induction parts generalizing selectors with
  | nil =>
      cases hselectors
      rfl
  | cons part rest ih =>
      rw [List.forall_mem_cons] at hparts
      obtain ⟨selector, others, hselector, hothers, rfl⟩ :=
        (Outcome.bind_cons_eq_ok id).mp hselectors
      rw [Condition.evalAny, hparts.1 selector hselector, ih hparts.2 hothers, id, holdsAny]
      cases selector.holds datum.stored <;> rfl

-- A condition says of every datum of the type what its selector says of the stored form. None of
-- its fields has to be turned into another kind first, so that no evaluation fails.
theorem eval_eq_holds {type : FieldType} {condition : Condition} {onElement : Bool}
    {selector : Selector} {datum : Datum} (hdots : ∀ word ∈ words, '.' ∉ word.toList)
    (hfits : condition.Fits catalog words type)
    (hstorable : ∀ test ∈ condition.tests, ∀ literal ∈ test.literals, literal.Storable)
    (hselector : ofCondition onElement condition = .ok selector)
    (hdatum : Holds catalog type datum) :
    condition.eval coercer datum = .ok (selector.holds datum.stored) := by
  induction hfits generalizing onElement selector datum with
  | constant b =>
      rw [ofCondition] at hselector
      split at hselector
      · cases hselector
      · cases hselector
        cases b <;> rfl
  | all h ih =>
      obtain ⟨-, selectors, hselectors, rfl⟩ := ofCondition_all_eq_ok hselector
      rw [Condition.eval, holds]
      refine evalAll_ofParts (fun part hpart selector hselector => ?_) hselectors
      exact ih part hpart
        (fun test htest => hstorable test (Condition.mem_testsOf.mpr ⟨part, hpart, htest⟩))
        hselector hdatum
  | any h ih =>
      obtain ⟨-, selectors, hselectors, rfl⟩ := ofCondition_any_eq_ok hselector
      rw [Condition.eval, holds]
      refine evalAny_ofParts (fun part hpart selector hselector => ?_) hselectors
      exact ih part hpart
        (fun test htest => hstorable test (Condition.mem_testsOf.mpr ⟨part, hpart, htest⟩))
        hselector hdatum
  | not h ih =>
      obtain ⟨inner, hinner, rfl⟩ := Outcome.map_eq_ok.mp hselector
      rw [Condition.eval, ih hstorable hinner hdatum]
      cases onElement <;> rfl
  | compare h hop hvalue =>
      exact eval_ofCompare coercer hdots h hdatum hop hvalue
        (hstorable _ (.head _) _ (.head _)) hselector
  | oneOf h hvalues =>
      exact eval_ofMembership coercer hdots h hdatum hvalues (hstorable _ (.head _)) hselector
  | between h hlow hhigh =>
      exact eval_ofRange coercer hdots h hdatum hlow hhigh (hstorable _ (.head _) _ (.head _))
        (hstorable _ (.head _) _ (.tail _ (.head _))) hselector
  | text h => exact eval_ofTest coercer hdots h hdatum hselector
  | isNull hpath hne hstored => exact eval_isNull coercer hdots hstored hdatum hpath hselector
  | isEmptyText h => exact eval_isEmptyText coercer hdots h hdatum hselector
  | isEmptyCollection hpath hstored =>
      exact eval_isEmptyCollection coercer hdots hstored hdatum hpath hselector
  | @anyElement type element collection inner hpath h ih =>
      obtain ⟨test, htest, hfield⟩ := ofCondition_anyElement_eq_ok hselector
      rw [holds_onField hdots hfield hpath hdatum, Condition.eval]
      rcases hdatum.walk hpath with hplace | hconforms
      · rw [hplace]
        rfl
      · generalize datum.walk collection.path = place at hconforms
        cases hconforms with
        | null h => rfl
        | list hitems =>
            rw [Datum.stored, Datum.storedItems_eq_map, holds, List.any_map]
            exact Outcome.anyM_eq_any fun item hitem => ih hstorable htest (.inr (hitems item hitem))

end Sieve.Document.Selector

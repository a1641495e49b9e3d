import Sieve.Proofs.Outcome
import Sieve.Proofs.Sql.Like
import Sieve.Sql.Fragment

-- The patterns of text tests, read by the rules of `LIKE` alone.
namespace Sieve.Sql

variable {escape : Char} {pattern text : List Char} {marks : List Mark}

-- What a whole text has to be for a pattern: any run of characters for `%`, any one character for
-- `_`, and the characters themselves else, as well as behind the escape.
inductive Like (escape : Char) : List Char → List Char → Prop where
  | nil : Like escape [] []
  | run {pattern before text : List Char} (h : Like escape pattern text) :
      Like escape ('%' :: pattern) (before ++ text)
  | one {c : Char} {pattern text : List Char} (h : Like escape pattern text) :
      Like escape ('_' :: pattern) (c :: text)
  | escaped {c : Char} {pattern text : List Char} (h : Like escape pattern text) :
      Like escape (escape :: c :: pattern) (c :: text)
  | char {c : Char} {pattern text : List Char} (hrun : c ≠ '%') (hone : c ≠ '_')
      (hescape : c ≠ escape) (h : Like escape pattern text) :
      Like escape (c :: pattern) (c :: text)

namespace Like

theorem of_fits (hmarks : Mark.readAll escape pattern = some marks)
    (hfits : Mark.fits marks text = true) : Like escape pattern text := by
  fun_induction Mark.readAll escape pattern generalizing marks text with
  | case1 =>
      obtain rfl := Option.some.inj hmarks
      obtain rfl := List.isEmpty_iff.mp hfits
      exact .nil
  | case2 => cases hmarks
  | case3 c rest ih =>
      obtain ⟨others, hothers, rfl⟩ := Option.map_eq_some_iff.mp hmarks
      cases text with
      | nil => cases hfits
      | cons d text =>
          simp only [Mark.fits, Bool.and_eq_true, beq_iff_eq] at hfits
          obtain ⟨rfl, hfits⟩ := hfits
          exact .escaped (ih hothers hfits)
  | case4 c rest hescape ih =>
      obtain ⟨others, hothers, rfl⟩ := Option.map_eq_some_iff.mp hmarks
      by_cases hrun : c = '%'
      · subst hrun
        obtain ⟨before, left, rfl, hleft⟩ := (Mark.fits_run_iff others text).mp hfits
        exact .run (ih hothers hleft)
      by_cases hone : c = '_'
      · subst hone
        cases text with
        | nil => cases hfits
        | cons d text => exact .one (ih hothers hfits)
      · rw [Mark.ofChar, if_neg hrun, if_neg hone] at hfits
        cases text with
        | nil => cases hfits
        | cons d text =>
            simp only [Mark.fits, Bool.and_eq_true, beq_iff_eq] at hfits
            obtain ⟨rfl, hfits⟩ := hfits
            exact .char hrun hone hescape (ih hothers hfits)

-- An escape that is no wildcard leaves each pattern one reading.
theorem exists_marks (hrun : '%' ≠ escape) (hone : '_' ≠ escape) (h : Like escape pattern text) :
    ∃ marks, Mark.readAll escape pattern = some marks ∧ Mark.fits marks text = true := by
  induction h with
  | nil => exact ⟨[], rfl, rfl⟩
  | @run pattern before text _ ih =>
      obtain ⟨marks, hmarks, hfits⟩ := ih
      refine ⟨.run :: marks, ?_, (Mark.fits_run_iff marks _).mpr ⟨before, text, rfl, hfits⟩⟩
      rw [Mark.readAll_cons_of_ne hrun, hmarks]
      rfl
  | @one c pattern text _ ih =>
      obtain ⟨marks, hmarks, hfits⟩ := ih
      refine ⟨.one :: marks, ?_, hfits⟩
      rw [Mark.readAll_cons_of_ne hone, hmarks]
      rfl
  | @escaped c pattern text _ ih =>
      obtain ⟨marks, hmarks, hfits⟩ := ih
      exact ⟨.char c :: marks, by simp [Mark.readAll, hmarks], by simp [Mark.fits, hfits]⟩
  | @char c pattern text hrunChar honeChar hescape _ ih =>
      obtain ⟨marks, hmarks, hfits⟩ := ih
      refine ⟨.char c :: marks, ?_, by simp [Mark.fits, hfits]⟩
      rw [Mark.readAll_cons_of_ne hescape, hmarks]
      simp [Mark.ofChar, hrunChar, honeChar]

end Like

theorem isLike_iff (hrun : '%' ≠ escape) (hone : '_' ≠ escape) (pattern text : String) :
    isLike escape pattern text = true ↔ Like escape pattern.toList text.toList := by
  constructor
  · intro h
    rw [isLike] at h
    split at h
    · rename_i marks hmarks
      exact .of_fits hmarks h
    · cases h
  · intro h
    obtain ⟨marks, hmarks, hfits⟩ := h.exists_marks hrun hone
    rw [isLike, hmarks]
    exact hfits

theorem Fragment.ofConditionAfter_text {d : Dialect} {place : Nat} {field : FieldRef}
    {test : TextTest} {pattern : String} {fragment : Fragment}
    (h : ofConditionAfter d place (.text field test pattern) = .ok fragment) :
    ∃ column : Column,
      fragment.sql = "(" ++ column.render d ++ " LIKE " ++ d.placeholder place ++ " ESCAPE '!')" ∧
        fragment.params = [.string (Clause.likePattern test pattern)] := by
  obtain ⟨clause, hclause, rfl⟩ := Outcome.map_eq_ok.mp h
  rw [Clause.ofCondition] at hclause
  obtain ⟨column, -, rfl⟩ := Outcome.map_eq_ok.mp hclause
  refine ⟨column, ?_, rfl⟩
  simp [Clause.pieces, Piece.render, String.append_assoc]

-- A text test holds of just the texts that are like its pattern, with `!` for the escape. So it is
-- bound in a statement, and there the escape is named.
theorem likePattern_like_iff (test : TextTest) (pattern : String) :
    (∀ text : String, Like '!' (Clause.likePattern test pattern).toList text.toList ↔
      test.holds text pattern = true) ∧
    ∀ (d : Dialect) (place : Nat) (field : FieldRef) (fragment : Fragment),
      Fragment.ofConditionAfter d place (.text field test pattern) = .ok fragment →
        ∃ column : Column,
          fragment.sql =
            "(" ++ column.render d ++ " LIKE " ++ d.placeholder place ++ " ESCAPE '!')" ∧
          fragment.params = [.string (Clause.likePattern test pattern)] := by
  constructor
  · intro text
    rw [← isLike_likePattern, ← isLike_iff (by decide) (by decide)]
    rfl
  · intro d place field fragment h
    exact Fragment.ofConditionAfter_text h

private def note : FieldRef := { path := [.member "note"], kind := .string, fold := true }

private def discounted : Fragment :=
  ⟨"(LOWER(\"note\") LIKE $3 ESCAPE '!')", [.string "%5!%!_!!%"]⟩

-- With both wildcards and the escape in what is looked for.
theorem discount_searched :
    Fragment.ofConditionAfter .postgres 2 (.text note .contains "5%_!") = .ok discounted ∧
      discounted.params = [.string (Clause.likePattern .contains "5%_!")] ∧
      Like '!' (Clause.likePattern .contains "5%_!").toList "saves 5%_!!".toList ∧
      ¬Like '!' (Clause.likePattern .contains "5%_!").toList "saves 50_!!".toList := by
  obtain ⟨hlike, hbound⟩ := likePattern_like_iff .contains "5%_!"
  have hfragment :
      Fragment.ofConditionAfter .postgres 2 (.text note .contains "5%_!") = .ok discounted := by
    rfl
  obtain ⟨_, -, hparams⟩ := hbound .postgres 2 note discounted hfragment
  refine ⟨hfragment, hparams, (hlike _).mpr (by decide), fun h => ?_⟩
  have hholds := (hlike _).mp h
  revert hholds
  decide

end Sieve.Sql

import Sieve.Proofs.Text.Search
import Sieve.Sql.Clause

namespace Sieve.Sql

-- What a character of a `LIKE` pattern stands for: any run of characters, any one of them, or a
-- character itself.
inductive Mark where
  | run
  | one
  | char (c : Char)

namespace Mark

def ofChar (c : Char) : Mark :=
  if c = '%' then run else if c = '_' then one else char c

-- The marks of a pattern. Behind the escape a character stands for itself; an escape with
-- nothing behind it makes no pattern.
def readAll (escape : Char) : List Char → Option (List Mark)
  | [] => some []
  | c :: rest =>
    if c = escape then
      match rest with
      | [] => none
      | next :: rest => (readAll escape rest).map (char next :: ·)
    else (readAll escape rest).map (ofChar c :: ·)

-- Whether a whole text is what the marks stand for.
def fits : List Mark → List Char → Bool
  | [], text => text.isEmpty
  | run :: marks, text => text.tails.any (fits marks)
  | one :: _, [] => false
  | one :: marks, _ :: text => fits marks text
  | char _ :: _, [] => false
  | char c :: marks, d :: text => d == c && fits marks text

theorem fits_run_iff (marks : List Mark) (text : List Char) :
    fits (run :: marks) text = true ↔
      ∃ before rest, text = before ++ rest ∧ fits marks rest = true := by
  simp only [fits, List.any_eq_true, List.mem_tails]
  constructor
  · rintro ⟨rest, ⟨before, h⟩, hrest⟩
    exact ⟨before, rest, h.symm, hrest⟩
  · rintro ⟨before, rest, h, hrest⟩
    exact ⟨rest, ⟨before, h.symm⟩, hrest⟩

theorem fits_chars_iff (cs : List Char) (marks : List Mark) (text : List Char) :
    fits (cs.map char ++ marks) text = true ↔
      ∃ rest, text = cs ++ rest ∧ fits marks rest = true := by
  induction cs generalizing text with
  | nil => simp
  | cons c cs ih =>
      cases text with
      | nil => simp [fits]
      | cons d text =>
          simp only [List.map_cons, List.cons_append, fits, Bool.and_eq_true, beq_iff_eq, ih,
            List.cons.injEq]
          constructor
          · rintro ⟨rfl, rest, rfl, hrest⟩
            exact ⟨rest, ⟨rfl, rfl⟩, hrest⟩
          · rintro ⟨rest, ⟨rfl, rfl⟩, hrest⟩
            exact ⟨rfl, rest, rfl, hrest⟩

theorem fits_chars_run_iff (cs text : List Char) :
    fits (cs.map char ++ [run]) text = true ↔ ∃ after, text = cs ++ after := by
  rw [fits_chars_iff]
  constructor
  · rintro ⟨rest, h, -⟩
    exact ⟨rest, h⟩
  · rintro ⟨after, h⟩
    exact ⟨after, h, (fits_run_iff _ _).mpr ⟨after, [], by simp, rfl⟩⟩

theorem fits_chars_iff_eq (cs text : List Char) :
    fits (cs.map char) text = true ↔ text = cs := by
  have h := fits_chars_iff cs [] text
  simp only [List.append_nil, fits, List.isEmpty_iff] at h
  rw [h]
  constructor
  · rintro ⟨rest, h, rfl⟩
    simpa using h
  · rintro rfl
    exact ⟨[], by simp, rfl⟩

theorem readAll_cons_of_ne {escape c : Char} (hc : c ≠ escape) (rest : List Char) :
    readAll escape (c :: rest) = (readAll escape rest).map (ofChar c :: ·) := by
  cases rest <;> simp [readAll, hc]

-- Escaped characters all stand for themselves.
theorem readAll_escapeLike_append (cs rest : List Char) :
    readAll Clause.escapeChar (Clause.escapeLike cs ++ rest) =
      (readAll Clause.escapeChar rest).map (cs.map char ++ ·) := by
  induction cs with
  | nil => simp [Clause.escapeLike]
  | cons c cs ih =>
      have hcons : Clause.escapeLike (c :: cs) =
          (if Clause.isWildcard c || c = Clause.escapeChar then [Clause.escapeChar, c] else [c]) ++
            Clause.escapeLike cs := by
        simp [Clause.escapeLike]
      rw [hcons]
      by_cases hc : Clause.isWildcard c || c = Clause.escapeChar
      · simp only [if_pos hc, List.cons_append, List.nil_append, readAll, ih]
        cases readAll Clause.escapeChar rest <;> rfl
      · simp only [Clause.isWildcard, Bool.or_eq_true, decide_eq_true_eq, not_or] at hc
        obtain ⟨⟨hrun, hone⟩, hescape⟩ := hc
        have hchar : ofChar c = char c := by simp [ofChar, hrun, hone]
        simp only [Clause.isWildcard, hrun, hone, hescape, Bool.or_self, decide_false,
          Bool.false_eq_true, if_false, List.cons_append, List.nil_append,
          readAll_cons_of_ne hescape, ih, hchar]
        cases readAll Clause.escapeChar rest <;> rfl

end Mark

-- Whether a text is like a pattern in which a character is escaped by the given one.
def isLike (escape : Char) (pattern text : String) : Bool :=
  match Mark.readAll escape pattern.toList with
  | some marks => Mark.fits marks text.toList
  | none => false

-- The texts that pass a test are those that are like its pattern, whatever wildcards there are.
theorem isLike_likePattern (test : TextTest) (pattern text : String) :
    isLike Clause.escapeChar (Clause.likePattern test pattern) text = test.holds text pattern := by
  have hrun (rest : List Char) : Mark.readAll Clause.escapeChar ('%' :: rest) =
      (Mark.readAll Clause.escapeChar rest).map (Mark.run :: ·) :=
    Mark.readAll_cons_of_ne (by decide) rest
  have hnil : Mark.readAll Clause.escapeChar [] = some [] := rfl
  have hplain : Mark.readAll Clause.escapeChar (Clause.escapeLike pattern.toList) =
      some (pattern.toList.map Mark.char) := by
    have h := Mark.readAll_escapeLike_append pattern.toList []
    simpa [hnil] using h
  rw [Bool.eq_iff_iff, TextTest.holds_iff]
  cases test with
  | beginsWith =>
      simp [isLike, Clause.likePattern, hrun, hnil, Mark.readAll_escapeLike_append,
        Mark.fits_chars_run_iff]
  | contains =>
      simp [isLike, Clause.likePattern, hrun, hnil, Mark.readAll_escapeLike_append,
        Mark.fits_run_iff, Mark.fits_chars_run_iff]
  | endsWith =>
      simp [isLike, Clause.likePattern, hrun, hplain, Mark.fits_run_iff, Mark.fits_chars_iff_eq]

end Sieve.Sql

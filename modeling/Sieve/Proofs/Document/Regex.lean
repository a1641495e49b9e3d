import Sieve.Document.Conversion
import Sieve.Document.Rendering
import Sieve.Proofs.Text.Search

namespace Sieve.Document.Regex

-- Takes the anchor off that a pattern may begin with.
def takeStart : List Char → Bool × List Char
  | '^' :: rest => (true, rest)
  | cs => (false, cs)

-- The characters that a pattern stands for, and whether it ends with an anchor. Behind a backslash
-- a metacharacter stands for itself; no other metacharacter has a reading here.
def readLiteral : List Char → Option (List Char × Bool)
  | [] => some ([], false)
  | c :: rest =>
    if c = '\\' then
      match rest with
      | [] => none
      | next :: rest =>
        if next ∈ metacharacters then
          (readLiteral rest).map fun (cs, atEnd) => (next :: cs, atEnd)
        else none
    else if c ∈ metacharacters then
      if c = '$' ∧ rest = [] then some ([], true) else none
    else (readLiteral rest).map fun (cs, atEnd) => (c :: cs, atEnd)

def read (pattern : String) (ignoreCase : Bool) : Option Regex :=
  let (atStart, body) := takeStart pattern.toList
  (readLiteral body).map fun (cs, atEnd) =>
    { atStart, literal := String.ofList cs, atEnd, ignoreCase }

theorem takeStart_of_ne {cs : List Char} (h : ∀ rest, cs ≠ '^' :: rest) :
    takeStart cs = (false, cs) := by
  unfold takeStart
  split
  · rename_i rest
    exact absurd rfl (h rest)
  · rfl

theorem readLiteral_cons_of_notMem {c : Char} (h : c ∉ metacharacters) (rest : List Char) :
    readLiteral (c :: rest) = (readLiteral rest).map fun (cs, atEnd) => (c :: cs, atEnd) := by
  have hc : c ≠ '\\' := by
    rintro rfl
    exact h (by decide)
  cases rest <;> simp [readLiteral, hc, h]

theorem readLiteral_escaped {c : Char} (h : c ∈ metacharacters) (rest : List Char) :
    readLiteral ('\\' :: c :: rest) =
      (readLiteral rest).map fun (cs, atEnd) => (c :: cs, atEnd) := by
  simp only [readLiteral, if_true, if_pos h]

theorem escape_cons_of_mem {c : Char} (h : c ∈ metacharacters) (cs : List Char) :
    escape (c :: cs) = '\\' :: c :: escape cs := by
  simp [escape, h]

theorem escape_cons_of_notMem {c : Char} (h : c ∉ metacharacters) (cs : List Char) :
    escape (c :: cs) = c :: escape cs := by
  simp [escape, h]

-- Escaped characters all stand for themselves.
theorem readLiteral_escape_append (cs rest : List Char) :
    readLiteral (escape cs ++ rest) =
      (readLiteral rest).map fun (others, atEnd) => (cs ++ others, atEnd) := by
  induction cs with
  | nil => simp [escape]
  | cons c cs ih =>
      by_cases hc : c ∈ metacharacters
      · rw [escape_cons_of_mem hc, List.cons_append, List.cons_append, readLiteral_escaped hc, ih]
        cases readLiteral rest <;> rfl
      · rw [escape_cons_of_notMem hc, List.cons_append, readLiteral_cons_of_notMem hc, ih]
        cases readLiteral rest <;> rfl

-- An escaped text does not begin with an anchor.
theorem escape_append_ne (cs : List Char) {rest : List Char} (h : ∀ others, rest ≠ '^' :: others) :
    ∀ others, escape cs ++ rest ≠ '^' :: others := by
  intro others heq
  cases cs with
  | nil => exact h others heq
  | cons c cs =>
      by_cases hc : c ∈ metacharacters
      · rw [escape_cons_of_mem hc] at heq
        cases heq
      · rw [escape_cons_of_notMem hc] at heq
        cases heq
        exact hc (by decide)

-- A pattern is read as what it was made of.
theorem read_pattern (r : Regex) : read r.pattern r.ignoreCase = some r := by
  obtain ⟨atStart, literal, atEnd, ignoreCase⟩ := r
  have hbody : readLiteral (escape literal.toList ++ if atEnd then ['$'] else []) =
      some (literal.toList, atEnd) := by
    rw [readLiteral_escape_append]
    cases atEnd <;> simp [readLiteral, metacharacters]
  have hstart : takeStart (pattern ⟨atStart, literal, atEnd, ignoreCase⟩).toList =
      (atStart, escape literal.toList ++ if atEnd then ['$'] else []) := by
    cases atStart with
    | true => simp [pattern, takeStart]
    | false =>
        have hrest : ∀ others, (if atEnd then ['$'] else []) ≠ '^' :: others := by
          cases atEnd <;> simp
        have hne := escape_append_ne literal.toList hrest
        simpa [pattern] using takeStart_of_ne hne
  simp [read, hstart, hbody]

-- Whether a regular expression is found in a text, at the ends where it is anchored.
def isFound (r : Regex) (text : List Char) : Bool :=
  (if r.atStart then [text] else text.tails).any fun rest =>
    if r.atEnd then rest == r.literal.toList else r.literal.toList.isPrefixOf rest

-- Case is ignored by looking at the stored text in lower case.
def isMatch (r : Regex) (s : String) : Bool :=
  r.isFound (if r.ignoreCase then (Text.lower s).toList else s.toList)

theorem isFound_iff (r : Regex) (text : List Char) :
    r.isFound text = true ↔ ∃ before after, text = before ++ r.literal.toList ++ after ∧
      (r.atStart = true → before = []) ∧ (r.atEnd = true → after = []) := by
  have hrest (rest : List Char) :
      (if r.atEnd then rest == r.literal.toList else r.literal.toList.isPrefixOf rest) = true ↔
        ∃ after, rest = r.literal.toList ++ after ∧ (r.atEnd = true → after = []) := by
    cases r.atEnd with
    | true => simp
    | false =>
        rw [if_neg Bool.false_ne_true, List.isPrefixOf_iff_prefix]
        constructor
        · rintro ⟨after, hafter⟩
          exact ⟨after, hafter.symm, nofun⟩
        · rintro ⟨after, hafter, -⟩
          exact ⟨after, hafter.symm⟩
  simp only [isFound, List.any_eq_true, hrest]
  cases r.atStart with
  | true =>
      constructor
      · rintro ⟨rest, hmem, after, hafter, hend⟩
        obtain rfl := List.mem_singleton.mp hmem
        exact ⟨[], after, hafter, fun _ => rfl, hend⟩
      · rintro ⟨before, after, htext, hbefore, hend⟩
        obtain rfl := hbefore rfl
        exact ⟨text, List.mem_singleton.mpr rfl, after, htext, hend⟩
  | false =>
      constructor
      · rintro ⟨rest, hmem, after, hafter, hend⟩
        obtain ⟨before, hbefore⟩ := (List.mem_tails ..).mp hmem
        exact ⟨before, after, by rw [← hbefore, hafter, List.append_assoc], nofun, hend⟩
      · rintro ⟨before, after, htext, -, hend⟩
        refine ⟨r.literal.toList ++ after, (List.mem_tails ..).mpr ⟨before, ?_⟩, after, rfl, hend⟩
        rw [htext, List.append_assoc]

-- The texts that a text test finds are those that its regular expression matches.
theorem isMatch_ofTest (test : TextTest) (pattern : String) (ignoreCase : Bool) (s : String) :
    (ofTest test pattern ignoreCase).isMatch s =
      test.holds (if ignoreCase then Text.lower s else s) pattern := by
  rw [Bool.eq_iff_iff, isMatch, isFound_iff, TextTest.holds_iff]
  cases ignoreCase <;> simp [ofTest]

theorem isMatch_exactly (pattern s : String) :
    (exactly (.string pattern)).isMatch s = (Text.lower s == pattern) := by
  rw [Bool.eq_iff_iff, isMatch, isFound_iff]
  simp [exactly, String.ext_iff]

end Sieve.Document.Regex

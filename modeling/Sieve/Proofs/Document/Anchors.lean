import Sieve.Proofs.Document.Conversion
import Sieve.Proofs.Document.Regex
import Sieve.Proofs.Document.Scope

-- The regular expressions in documents, read by the rules of regular expressions alone.
namespace Sieve.Document

namespace Regex

variable {cs pattern before text : List Char} {c : Char}

-- The characters that mean something else than themselves, in the order of their codes.
def syntaxCharacters : List Char :=
  ['$', '(', ')', '*', '+', '.', '?', '[', '\\', ']', '^', '\x7b', '|', '\x7d']

-- A pattern matches the beginning of a text that stands behind another one. Anchors ask for nothing
-- before that place or behind it; for other characters with a meaning there is no rule.
inductive MatchesAt : List Char → List Char → List Char → Prop where
  | nil {before text : List Char} : MatchesAt [] before text
  | start {pattern text : List Char} (h : MatchesAt pattern [] text) :
      MatchesAt ('^' :: pattern) [] text
  | finish {pattern before : List Char} (h : MatchesAt pattern before []) :
      MatchesAt ('$' :: pattern) before []
  | escaped {c : Char} {pattern before text : List Char} (hc : c ∈ syntaxCharacters)
      (h : MatchesAt pattern (before ++ [c]) text) :
      MatchesAt ('\\' :: c :: pattern) before (c :: text)
  | char {c : Char} {pattern before text : List Char} (hc : c ∉ syntaxCharacters)
      (h : MatchesAt pattern (before ++ [c]) text) :
      MatchesAt (c :: pattern) before (c :: text)

def MatchesSomewhere (pattern text : List Char) : Prop :=
  ∃ before rest, text = before ++ rest ∧ MatchesAt pattern before rest

-- Each character with a meaning has a backslash before it, and no other character has one.
inductive IsEscaped : List Char → Prop where
  | nil : IsEscaped []
  | escaped {c : Char} {cs : List Char} (hc : c ∈ syntaxCharacters) (h : IsEscaped cs) :
      IsEscaped ('\\' :: c :: cs)
  | char {c : Char} {cs : List Char} (hc : c ∉ syntaxCharacters) (h : IsEscaped cs) :
      IsEscaped (c :: cs)

-- But for its anchors a pattern is escaped, and it matches just the texts with a property.
def FindsJust (pattern : String) (atStart atEnd : Bool) (property : String → Prop) : Prop :=
  ∃ body, pattern.toList =
      (if atStart then ['^'] else []) ++ body ++ (if atEnd then ['$'] else []) ∧
    IsEscaped body ∧
    ∀ text : String, MatchesSomewhere pattern.toList text.toList ↔ property text

theorem mem_syntaxCharacters_iff : c ∈ syntaxCharacters ↔ c ∈ metacharacters := by
  have hperm : syntaxCharacters.Perm metacharacters := by decide
  exact hperm.mem_iff

theorem isEscaped_escape (cs : List Char) : IsEscaped (escape cs) := by
  induction cs with
  | nil => exact .nil
  | cons c cs ih =>
      by_cases hc : c ∈ metacharacters
      · rw [escape_cons_of_mem hc]
        exact .escaped (mem_syntaxCharacters_iff.mpr hc) ih
      · rw [escape_cons_of_notMem hc]
        exact .char (fun h => hc (mem_syntaxCharacters_iff.mp h)) ih

theorem matchesAt_escaped_iff (hc : c ∈ syntaxCharacters) :
    MatchesAt ('\\' :: c :: pattern) before text ↔
      ∃ rest, text = c :: rest ∧ MatchesAt pattern (before ++ [c]) rest := by
  constructor
  · intro h
    cases h with
    | escaped _ h => exact ⟨_, rfl, h⟩
    | char hbackslash _ => exact absurd (by decide) hbackslash
  · rintro ⟨rest, rfl, h⟩
    exact .escaped hc h

theorem matchesAt_char_iff (hc : c ∉ syntaxCharacters) :
    MatchesAt (c :: pattern) before text ↔
      ∃ rest, text = c :: rest ∧ MatchesAt pattern (before ++ [c]) rest := by
  constructor
  · intro h
    cases h with
    | start => exact absurd (by decide) hc
    | finish => exact absurd (by decide) hc
    | escaped => exact absurd (by decide) hc
    | char _ h => exact ⟨_, rfl, h⟩
  · rintro ⟨rest, rfl, h⟩
    exact .char hc h

theorem matchesAt_start_iff (atStart : Bool) :
    MatchesAt ((if atStart then ['^'] else []) ++ pattern) before text ↔
      (atStart = true → before = []) ∧ MatchesAt pattern before text := by
  cases atStart with
  | false => simp
  | true =>
      constructor
      · intro h
        cases h with
        | start h => exact ⟨fun _ => rfl, h⟩
        | char hc _ => exact absurd (by decide) hc
      · rintro ⟨hbefore, h⟩
        obtain rfl := hbefore rfl
        exact .start h

theorem matchesAt_finish_iff (atEnd : Bool) :
    MatchesAt (if atEnd then ['$'] else []) before text ↔ (atEnd = true → text = []) := by
  cases atEnd with
  | false => simpa using .nil
  | true =>
      constructor
      · intro h
        cases h with
        | finish => exact fun _ => rfl
        | char hc _ => exact absurd (by decide) hc
      · intro htext
        obtain rfl := htext rfl
        exact .finish .nil

-- What is escaped is matched by itself, and the rest behind it.
theorem matchesAt_escape_append_iff (cs : List Char) :
    MatchesAt (escape cs ++ pattern) before text ↔
      ∃ rest, text = cs ++ rest ∧ MatchesAt pattern (before ++ cs) rest := by
  induction cs generalizing before text with
  | nil => simp [escape]
  | cons c cs ih =>
      have hcons : MatchesAt (escape (c :: cs) ++ pattern) before text ↔
          ∃ rest, text = c :: rest ∧ MatchesAt (escape cs ++ pattern) (before ++ [c]) rest := by
        by_cases hc : c ∈ metacharacters
        · rw [escape_cons_of_mem hc, List.cons_append, List.cons_append,
            matchesAt_escaped_iff (mem_syntaxCharacters_iff.mpr hc)]
        · rw [escape_cons_of_notMem hc, List.cons_append,
            matchesAt_char_iff fun h => hc (mem_syntaxCharacters_iff.mp h)]
      rw [hcons]
      constructor
      · rintro ⟨_, rfl, h⟩
        obtain ⟨rest, rfl, hrest⟩ := ih.mp h
        exact ⟨rest, rfl, by simpa using hrest⟩
      · rintro ⟨rest, rfl, hrest⟩
        exact ⟨cs ++ rest, rfl, ih.mpr ⟨rest, rfl, by simpa using hrest⟩⟩

theorem matchesSomewhere_pattern_iff (r : Regex) (text : List Char) :
    MatchesSomewhere r.pattern.toList text ↔ r.isFound text = true := by
  rw [isFound_iff]
  simp only [MatchesSomewhere, pattern, String.toList_ofList, List.append_assoc,
    matchesAt_start_iff, matchesAt_escape_append_iff, matchesAt_finish_iff]
  constructor
  · rintro ⟨before, _, rfl, hbefore, after, rfl, hafter⟩
    exact ⟨before, after, by simp, hbefore, hafter⟩
  · rintro ⟨before, after, rfl, hbefore, hafter⟩
    exact ⟨before, r.literal.toList ++ after, by simp, hbefore, after, rfl, hafter⟩

theorem findsJust_pattern (r : Regex) {property : String → Prop}
    (h : ∀ text : String, r.isFound text.toList = true ↔ property text) :
    FindsJust r.pattern r.atStart r.atEnd property := by
  refine ⟨escape r.literal.toList, ?_, isEscaped_escape _, fun text => ?_⟩
  · rw [pattern, String.toList_ofList]
  · rw [matchesSomewhere_pattern_iff, h]

end Regex

variable {members : List (String × Json)} {items : List Json} {pattern : String}

-- A regular expression that stands in a document.
def HasRegex (document : Json) (pattern : String) : Prop :=
  ∃ members, Inside members document ∧ ("$regex", .string pattern) ∈ members

theorem hasRegex_object_iff : HasRegex (.object members) pattern ↔
    ("$regex", .string pattern) ∈ members ∨ ∃ member ∈ members, HasRegex member.2 pattern := by
  constructor
  · rintro ⟨inner, hinside, hregex⟩
    cases hinside with
    | here => exact .inl hregex
    | member hmember h => exact .inr ⟨_, hmember, inner, h, hregex⟩
  · rintro (hregex | ⟨⟨key, json⟩, hmember, inner, hinside, hregex⟩)
    · exact ⟨members, .here, hregex⟩
    · exact ⟨inner, .member hmember hinside, hregex⟩

theorem hasRegex_array_iff :
    HasRegex (.array items) pattern ↔ ∃ item ∈ items, HasRegex item pattern := by
  constructor
  · rintro ⟨inner, hinside, hregex⟩
    cases hinside with
    | item hitem h => exact ⟨_, hitem, inner, h, hregex⟩
  · rintro ⟨item, hitem, inner, hinside, hregex⟩
    exact ⟨inner, .item hitem hinside, hregex⟩

theorem not_hasRegex_string (s : String) : ¬HasRegex (.string s) pattern := by
  rintro ⟨_, hinside, -⟩
  cases hinside

theorem hasRegex_toJson_iff (r : Regex) : HasRegex r.toJson pattern ↔ pattern = r.pattern := by
  rw [Regex.toJson]
  split <;> simp [hasRegex_object_iff, not_hasRegex_string]

-- A member that holds an object is not a regular expression itself, whatever its key.
theorem hasRegex_single_iff {key : String} {json : Json} (h : ∀ s, json ≠ .string s) :
    HasRegex (.object [(key, json)]) pattern ↔ HasRegex json pattern := by
  simp only [hasRegex_object_iff, List.mem_singleton, exists_eq_left, Prod.mk.injEq,
    or_iff_right_iff_imp]
  rintro ⟨-, hjson⟩
  exact absurd hjson.symm (h pattern)

namespace Selector

variable {part : Condition} {field : FieldRef} {test selector : Selector}

theorem hasRegex_onField_iff (h : onField part field test = .ok selector)
    (htest : ∀ s, test.toJson ≠ .string s) :
    HasRegex selector.toJson pattern ↔ HasRegex test.toJson pattern := by
  rcases onField_eq_ok h with ⟨-, rfl⟩ | ⟨-, name, -, rfl⟩
  · rfl
  · rw [toJson]
    exact hasRegex_single_iff htest

theorem hasRegex_regex_iff (r : Regex) :
    HasRegex (regex r).toJson pattern ↔ pattern = r.pattern := by
  rw [toJson]
  exact hasRegex_toJson_iff r

theorem toJson_regex_ne_string (r : Regex) (s : String) : (regex r).toJson ≠ .string s := by
  rw [toJson, Regex.toJson]
  split <;> simp

theorem hasRegex_not_iff (r : Regex) :
    HasRegex (not (regex r)).toJson pattern ↔ pattern = r.pattern := by
  rw [toJson, hasRegex_single_iff (toJson_regex_ne_string r), hasRegex_regex_iff]

theorem hasRegex_oneOf_iff (regexes : List Regex) :
    HasRegex (oneOf (regexes.map .regex)).toJson pattern ↔ ∃ r ∈ regexes, pattern = r.pattern := by
  rw [toJson, hasRegex_single_iff (by simp), hasRegex_array_iff]
  simp [Operand.toJson, hasRegex_toJson_iff]

-- Texts are not compared by the day.
theorem ofCompare_folded (hfold : field.fold = true) (op : Comparison) (literal : String) :
    ofCompare part field op (.string literal) =
      match op with
      | .equal => onField part field (regex (.exactly (.string literal)))
      | .notEqual => onField part field (not (regex (.exactly (.string literal))))
      | _ => .error (.of .document .foldedOrder part) := by
  unfold ofCompare
  rw [hfold]
  cases field.dayOnly <;> rfl

end Selector

-- The regular expressions in the documents of a condition are those of a list.
def WritesPatterns (condition : Condition) (patterns : List String) : Prop :=
  ∀ onElement selector, Selector.ofCondition onElement condition = .ok selector →
    ∀ pattern, HasRegex selector.toJson pattern ↔ pattern ∈ patterns

theorem writesPatterns_text (field : FieldRef) (test : TextTest) (literal : String) :
    WritesPatterns (.text field test literal) [(Regex.ofTest test literal field.fold).pattern] := by
  intro onElement selector h pattern
  rw [Selector.ofCondition] at h
  rw [Selector.hasRegex_onField_iff h (Selector.toJson_regex_ne_string _),
    Selector.hasRegex_regex_iff, List.mem_singleton]

theorem writesPatterns_compare {field : FieldRef} (hfold : field.fold = true) (op : Comparison)
    (literal : String) :
    WritesPatterns (.compare field op (.string literal))
      [(Regex.exactly (.string literal)).pattern] := by
  intro onElement selector h pattern
  rw [Selector.ofCondition, Selector.ofCompare_folded hfold] at h
  rw [List.mem_singleton]
  cases op with
  | equal =>
      rw [Selector.hasRegex_onField_iff h (Selector.toJson_regex_ne_string _),
        Selector.hasRegex_regex_iff]
  | notEqual =>
      rw [Selector.hasRegex_onField_iff h (by simp [Selector.toJson]), Selector.hasRegex_not_iff]
  | greater => cases h
  | greaterOrEqual => cases h
  | less => cases h
  | lessOrEqual => cases h

theorem writesPatterns_oneOf {field : FieldRef} (hfold : field.fold = true)
    (literals : List String) :
    WritesPatterns (.oneOf field (literals.map .string))
      (literals.map fun literal => (Regex.exactly (.string literal)).pattern) := by
  intro onElement selector h pattern
  have hoperands : Selector.onField (.oneOf field (literals.map .string)) field
      (.oneOf ((literals.map fun literal => Regex.exactly (.string literal)).map .regex)) =
        .ok selector := by
    rw [← h, Selector.ofCondition, Selector.ofMembership]
    cases literals with
    | nil => cases field.dayOnly <;> simp [Selector.days?, hfold]
    | cons literal literals => simp [Selector.days?, hfold, Function.comp_def]
  rw [Selector.hasRegex_onField_iff hoperands (by simp [Selector.toJson]),
    Selector.hasRegex_oneOf_iff]
  simp [eq_comm]

-- The regular expression of a text test matches the texts that pass the test, and that of an
-- equality the literal alone. These are what the documents of such conditions hold.
theorem patterns_find_tested (literal : String) :
    (∀ (test : TextTest) (ignoreCase : Bool),
      Regex.FindsJust (Regex.ofTest test literal ignoreCase).pattern (test == .beginsWith)
        (test == .endsWith) fun text => test.holds text literal = true) ∧
    Regex.FindsJust (Regex.exactly (.string literal)).pattern true true
      (fun text => text = literal) ∧
    (∀ (field : FieldRef) (test : TextTest),
      WritesPatterns (.text field test literal) [(Regex.ofTest test literal field.fold).pattern]) ∧
    (∀ (field : FieldRef) (op : Comparison), field.fold = true →
      WritesPatterns (.compare field op (.string literal))
        [(Regex.exactly (.string literal)).pattern]) ∧
    ∀ (field : FieldRef) (literals : List String), field.fold = true →
      WritesPatterns (.oneOf field (literals.map .string))
        (literals.map fun literal => (Regex.exactly (.string literal)).pattern) := by
  refine ⟨fun test ignoreCase => ?_, ?_, fun field test => writesPatterns_text field test literal,
    fun field op hfold => writesPatterns_compare hfold op literal,
    fun field literals hfold => writesPatterns_oneOf hfold literals⟩
  · apply Regex.findsJust_pattern (Regex.ofTest test literal ignoreCase)
    intro text
    rw [Regex.isFound_iff, TextTest.holds_iff]
    simp [Regex.ofTest]
  · apply Regex.findsJust_pattern (Regex.exactly (.string literal))
    intro text
    rw [Regex.isFound_iff]
    simp [Regex.exactly, String.ext_iff]

private def code : FieldRef := { path := [.member "code"], kind := .string, fold := true }

private def unmasked : Selector := .inField "code" (.not (.regex ⟨true, "^a.b$", true, true⟩))

-- A literal between characters that would be anchors, and one that is a backslash.
theorem anchors_of_literal_escaped :
    Selector.ofCondition false (.compare code .notEqual (.string "^a.b$")) = .ok unmasked ∧
      HasRegex unmasked.toJson "^\\^a\\.b\\$$" ∧
      Regex.MatchesSomewhere "^\\^a\\.b\\$$".toList "^a.b$".toList ∧
      ¬Regex.MatchesSomewhere "^\\^a\\.b\\$$".toList "^axb$".toList ∧
      Regex.MatchesSomewhere "\\\\$".toList "C:\\".toList := by
  have hunmasked : Selector.ofCondition false (.compare code .notEqual (.string "^a.b$")) =
      .ok unmasked := by
    rfl
  have hexactly : (Regex.exactly (.string "^a.b$")).pattern = "^\\^a\\.b\\$$" := by
    decide +kernel
  have hends : (Regex.ofTest .endsWith "\\" false).pattern = "\\\\$" := by
    decide +kernel
  obtain ⟨-, ⟨_, -, -, hequal⟩, -, hcompare, -⟩ := patterns_find_tested "^a.b$"
  obtain ⟨hbackslash, -⟩ := patterns_find_tested "\\"
  obtain ⟨_, -, -, hlast⟩ := hbackslash .endsWith false
  rw [hexactly] at hequal
  rw [hends] at hlast
  refine ⟨hunmasked, ?_, (hequal _).mpr rfl, fun h => ?_, (hlast _).mpr (by decide)⟩
  · exact (hcompare code .notEqual rfl false unmasked hunmasked _).mpr
      (List.mem_singleton.mpr hexactly.symm)
  · exact absurd ((hequal _).mp h) (by decide)

end Sieve.Document

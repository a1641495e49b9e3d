import Sieve.Proofs.Locale.Number

-- The ways to write an integer in a locale: a sign or none, then digits, alone or in groups of
-- three with a separator before each. Rewriting a text in plain form and reading that accepts just these.
namespace Sieve

open Decimal (isDigit readInt takeSign)

variable {locale : Locale} {cs text digits lead sign : List Char} {groups : List (List Char)}
  {negative : Bool} {n : Int}

-- A sign or none, and whether it is a minus.
inductive Sign : List Char → Bool → Prop where
  | none : Sign [] false
  | plus : Sign ['+'] false
  | minus : Sign ['-'] true

namespace Locale

-- Groups of three digits, each behind a separator, and all their digits.
inductive Groups (locale : Locale) : List Char → List Char → Prop where
  | nil : Groups locale [] []
  | cons {separator first second third : Char} {text digits : List Char}
      (hseparator : separator = locale.group ∨ separator = '\u00a0' ∨ separator = '\u202f')
      (hfirst : isDigit first = true) (hsecond : isDigit second = true)
      (hthird : isDigit third = true) (hrest : Groups locale text digits) :
      Groups locale (separator :: first :: second :: third :: text)
        (first :: second :: third :: digits)

-- A text of digits, alone or parted in groups of which the first may be short, and all its digits.
inductive Magnitude (locale : Locale) : List Char → List Char → Prop where
  | plain {digits : List Char} (hne : digits ≠ []) (hdigits : ∀ c ∈ digits, isDigit c = true) :
      Magnitude locale digits digits
  | grouped {lead text digits : List Char} (hlead : ∀ c ∈ lead, isDigit c = true)
      (hlength : 1 ≤ lead.length ∧ lead.length ≤ 3) (hgroups : Groups locale text digits)
      (hne : text ≠ []) : Magnitude locale (lead ++ text) (lead ++ digits)

-- A text that writes an integer, and the integer.
inductive WritesInteger (locale : Locale) : List Char → Int → Prop where
  | intro {sign text digits : List Char} {negative : Bool} (hsign : Sign sign negative)
      (hmagnitude : Magnitude locale text digits) :
      WritesInteger locale (sign ++ text)
        (if negative then -(Nat.ofDigitChars 10 digits 0 : Int) else Nat.ofDigitChars 10 digits 0)

end Locale

namespace Decimal

theorem exists_sign (cs : List Char) :
    ∃ sign, Sign sign (takeSign cs).1 ∧ cs = sign ++ (takeSign cs).2 := by
  unfold takeSign
  split
  · exact ⟨_, .minus, rfl⟩
  · exact ⟨_, .plus, rfl⟩
  · exact ⟨_, .none, rfl⟩

theorem takeSign_sign_append (hsign : Sign sign negative) (hdigits : ∀ c ∈ digits, isDigit c = true)
    (hne : digits ≠ []) : takeSign (sign ++ digits) = (negative, digits) := by
  cases hsign with
  | plus | minus => rfl
  | none =>
      obtain ⟨c, rest, rfl⟩ := List.exists_cons_of_ne_nil hne
      exact takeSign_of_isDigit (hdigits c (.head _)) rest

theorem takeSign_append (hne : lead ≠ []) (rest : List Char) :
    takeSign (lead ++ rest) = ((takeSign lead).1, (takeSign lead).2 ++ rest) := by
  obtain ⟨c, others, rfl⟩ := List.exists_cons_of_ne_nil hne
  by_cases hminus : c = '-'
  · subst hminus
    rfl
  by_cases hplus : c = '+'
  · subst hplus
    rfl
  simp [takeSign, hminus, hplus]

theorem readNat_of_digits (hne : digits ≠ []) (hdigits : ∀ c ∈ digits, isDigit c = true) :
    readNat digits = some (Nat.ofDigitChars 10 digits 0) := by
  have hall : digits.all isDigit = true := List.all_eq_true.mpr hdigits
  simp [readNat, hne, hall, -List.all_eq_true]

-- A plain integer is a sign or none, and digits.
theorem readInt_eq_some_iff :
    readInt cs = some n ↔ ∃ sign negative digits, Sign sign negative ∧ digits ≠ [] ∧
      (∀ c ∈ digits, isDigit c = true) ∧ cs = sign ++ digits ∧
      (if negative then -(Nat.ofDigitChars 10 digits 0 : Int) else Nat.ofDigitChars 10 digits 0) =
        n := by
  rw [readInt_eq_some]
  constructor
  · rintro ⟨m, hm, hn⟩
    obtain ⟨hne, hdigits, rfl⟩ := readNat_eq_some hm
    obtain ⟨sign, hsign, hcs⟩ := exists_sign cs
    exact ⟨sign, _, _, hsign, hne, hdigits, hcs, hn⟩
  · rintro ⟨sign, negative, digits, hsign, hne, hdigits, rfl, hn⟩
    rw [takeSign_sign_append hsign hdigits hne]
    exact ⟨_, readNat_of_digits hne hdigits, hn⟩

end Decimal

namespace Locale

theorem isGroup_iff {c : Char} :
    locale.isGroup c = true ↔ c = locale.group ∨ c = '\u00a0' ∨ c = '\u202f' := by
  simp [isGroup, or_assoc]

theorem isGroup_of_mem_sign (hsign : Sign sign negative) :
    ∀ c ∈ sign, locale.isGroup c = false ∧ c ≠ locale.decimal := by
  cases hsign with
  | none => exact List.forall_mem_nil _
  | plus => exact List.forall_mem_singleton.mpr (by cases locale <;> decide)
  | minus => exact List.forall_mem_singleton.mpr (by cases locale <;> decide)

theorem ne_decimal_of_isGroup {c : Char} (h : locale.isGroup c = true) : c ≠ locale.decimal := by
  rcases isGroup_iff.mp h with rfl | rfl | rfl <;> cases locale <;> decide

theorem Groups.ne_decimal (h : Groups locale text digits) : ∀ c ∈ text, c ≠ locale.decimal := by
  have hdigit {c : Char} (hc : isDigit c = true) : c ≠ locale.decimal :=
    ne_decimal_of_isPlain (isPlain_of_isDigit hc) locale
  induction h with
  | nil => exact List.forall_mem_nil _
  | cons hseparator hfirst hsecond hthird _ ih =>
      simp only [List.forall_mem_cons]
      exact ⟨ne_decimal_of_isGroup (isGroup_iff.mpr hseparator), hdigit hfirst, hdigit hsecond,
        hdigit hthird, ih⟩

theorem Magnitude.ne_decimal (h : Magnitude locale text digits) :
    ∀ c ∈ text, c ≠ locale.decimal := by
  have hdigits {cs : List Char} (hcs : ∀ c ∈ cs, isDigit c = true) : ∀ c ∈ cs, c ≠ locale.decimal :=
    fun c hc => ne_decimal_of_isPlain (isPlain_of_isDigit (hcs c hc)) locale
  cases h with
  | plain _ hall => exact hdigits hall
  | grouped hlead _ hgroups _ =>
      exact List.forall_mem_append.mpr ⟨hdigits hlead, hgroups.ne_decimal⟩

theorem Groups.isDigit (h : Groups locale text digits) : ∀ c ∈ digits, isDigit c = true := by
  induction h with
  | nil => exact List.forall_mem_nil _
  | cons _ hfirst hsecond hthird _ ih =>
      simp only [List.forall_mem_cons]
      exact ⟨hfirst, hsecond, hthird, ih⟩

theorem Magnitude.isDigit (h : Magnitude locale text digits) : ∀ c ∈ digits, isDigit c = true := by
  cases h with
  | plain _ hdigits => exact hdigits
  | grouped hlead _ hgroups _ => exact List.forall_mem_append.mpr ⟨hlead, hgroups.isDigit⟩

theorem Magnitude.ne_nil (h : Magnitude locale text digits) : digits ≠ [] := by
  cases h with
  | plain hne _ => exact hne
  | grouped _ hlength _ _ =>
      exact List.append_ne_nil_of_left_ne_nil (List.ne_nil_of_length_pos hlength.1) _

theorem isFullGroup_iff {group : List Char} :
    isFullGroup group = true ↔ ∃ first second third, group = [first, second, third] ∧
      isDigit first = true ∧ isDigit second = true ∧ isDigit third = true := by
  rw [isFullGroup, Bool.and_eq_true, beq_iff_eq, List.length_eq_three]
  constructor
  · rintro ⟨⟨first, second, third, rfl⟩, hall⟩
    exact ⟨first, second, third, rfl, by simpa using hall⟩
  · rintro ⟨first, second, third, rfl, hfirst, hsecond, hthird⟩
    exact ⟨⟨first, second, third, rfl⟩, by simp [hfirst, hsecond, hthird]⟩

-- Where a text is split, its first part ends with the text or before a separator.
theorem splitOnP_eq_cons (h : cs.splitOnP locale.isGroup = lead :: groups) :
    groups = [] ∧ cs = lead ∨ ∃ separator rest, locale.isGroup separator = true ∧
      cs = lead ++ separator :: rest ∧ rest.splitOnP locale.isGroup = groups := by
  cases hfind : cs.find? locale.isGroup with
  | none =>
      have hnone : ∀ c ∈ cs, locale.isGroup c = false := by simpa using hfind
      rw [List.splitOnP_eq_singleton hnone] at h
      obtain ⟨rfl, rfl⟩ := List.cons.inj h
      exact .inl ⟨rfl, rfl⟩
  | some separator =>
      obtain ⟨hseparator, before, rest, rfl, hbefore⟩ := List.find?_eq_some_iff_append.mp hfind
      rw [List.splitOnP_append_cons_of_forall_mem (fun c hc => by simpa using hbefore c hc)
        separator hseparator] at h
      obtain ⟨rfl, hrest⟩ := List.cons.inj h
      exact .inr ⟨separator, rest, hseparator, rfl, hrest⟩

-- What is split into groups of three digits behind its first part is written with those groups.
theorem exists_groups (h : cs.splitOnP locale.isGroup = lead :: groups)
    (hfull : groups.all isFullGroup = true) :
    ∃ text, cs = lead ++ text ∧ Groups locale text groups.flatten := by
  induction groups generalizing cs lead with
  | nil =>
      rcases splitOnP_eq_cons h with ⟨-, rfl⟩ | ⟨_, rest, -, -, hrest⟩
      · exact ⟨[], (List.append_nil cs).symm, .nil⟩
      · exact absurd hrest (List.splitOnP_ne_nil _ rest)
  | cons group others ih =>
      rcases splitOnP_eq_cons h with ⟨hnil, -⟩ | ⟨separator, rest, hseparator, rfl, hrest⟩
      · cases hnil
      rw [List.all_cons, Bool.and_eq_true] at hfull
      obtain ⟨first, second, third, rfl, hfirst, hsecond, hthird⟩ := isFullGroup_iff.mp hfull.1
      obtain ⟨text, rfl, htext⟩ := ih hrest hfull.2
      exact ⟨_, rfl, .cons (isGroup_iff.mp hseparator) hfirst hsecond hthird htext⟩

theorem Groups.exists_splitOnP (h : Groups locale text digits)
    (hlead : ∀ c ∈ lead, locale.isGroup c = false) :
    ∃ groups, (lead ++ text).splitOnP locale.isGroup = lead :: groups ∧
      groups.all isFullGroup = true ∧ groups.flatten = digits := by
  induction h generalizing lead with
  | nil => exact ⟨[], by rw [List.append_nil, List.splitOnP_eq_singleton hlead], rfl, rfl⟩
  | @cons separator first second third text digits hseparator hfirst hsecond hthird _ ih =>
      have hfull : isFullGroup [first, second, third] = true :=
        isFullGroup_iff.mpr ⟨first, second, third, rfl, hfirst, hsecond, hthird⟩
      have hgroup : ∀ c ∈ [first, second, third], locale.isGroup c = false := by
        intro c hc
        refine isGroup_of_isPlain (isPlain_of_isDigit ?_) locale
        simp only [isFullGroup, Bool.and_eq_true, List.all_eq_true] at hfull
        exact hfull.2 c hc
      obtain ⟨groups, hsplit, hgroups, rfl⟩ := ih hgroup
      refine ⟨[first, second, third] :: groups, ?_, ?_, rfl⟩
      · rw [List.splitOnP_append_cons_of_forall_mem hlead separator (isGroup_iff.mpr hseparator)]
        exact congrArg (lead :: ·) hsplit
      · rw [List.all_cons, hfull, hgroups, Bool.and_self]

theorem isLeadGroup_sign_append (hsign : Sign sign negative)
    (hdigits : ∀ c ∈ digits, isDigit c = true) :
    isLeadGroup (sign ++ digits) = true ↔ 1 ≤ digits.length ∧ digits.length ≤ 3 := by
  have hdrop : (sign ++ digits).dropWhile (fun c => c == '+' || c == '-') = digits := by
    have hself : digits.dropWhile (fun c => c == '+' || c == '-') = digits := by
      cases digits with
      | nil => rfl
      | cons c rest =>
          have hc : (c == '+' || c == '-') = false := by
            have hdigit := hdigits c (.head _)
            rw [Bool.or_eq_false_iff, beq_eq_false_iff_ne, beq_eq_false_iff_ne]
            constructor <;> rintro rfl <;> cases hdigit
          rw [List.dropWhile_cons, hc, if_neg Bool.false_ne_true]
    cases hsign <;> exact hself
  have hall : digits.all isDigit = true := List.all_eq_true.mpr hdigits
  rw [isLeadGroup, hdrop]
  simp [hall, -List.all_eq_true]

theorem joinGroups_eq_some (hsplit : cs.splitOnP locale.isGroup = lead :: groups) :
    locale.joinGroups cs = some digits ↔
      (groups = [] ∨ isLeadGroup lead = true ∧ groups.all isFullGroup = true) ∧
        lead ++ groups.flatten = digits := by
  rw [joinGroups, hsplit]
  cases groups with
  | nil => simp
  | cons group others => simp [-List.all_cons, -List.flatten_cons]

theorem Groups.eq_nil_iff (h : Groups locale text digits) : digits = [] ↔ text = [] := by
  cases h <;> simp

theorem ne_nil_of_flatten (hfull : groups.all isFullGroup = true) (hne : groups ≠ []) :
    groups.flatten ≠ [] := by
  obtain ⟨group, others, rfl⟩ := List.exists_cons_of_ne_nil hne
  rw [List.all_cons, Bool.and_eq_true] at hfull
  obtain ⟨first, second, third, rfl, -⟩ := isFullGroup_iff.mp hfull.1
  exact List.cons_ne_nil _ _

-- The groups of a text, joined and read, give the integer that it writes.
theorem readInt_joinGroups :
    (locale.joinGroups cs).bind readInt = some n ↔ WritesInteger locale cs n := by
  constructor
  · intro h
    obtain ⟨plain, hjoin, hread⟩ := Option.bind_eq_some_iff.mp h
    obtain ⟨lead, groups, hsplit⟩ :=
      List.exists_cons_of_ne_nil (List.splitOnP_ne_nil locale.isGroup cs)
    obtain ⟨hform, rfl⟩ := (joinGroups_eq_some hsplit).mp hjoin
    by_cases hgroups : groups = []
    · subst hgroups
      obtain ⟨-, rfl⟩ := (splitOnP_eq_cons hsplit).resolve_right
        fun ⟨_, rest, _, _, hrest⟩ => List.splitOnP_ne_nil _ rest hrest
      rw [List.flatten_nil, List.append_nil] at hread
      obtain ⟨sign, negative, digits, hsign, hne, hdigits, rfl, rfl⟩ :=
        Decimal.readInt_eq_some_iff.mp hread
      exact .intro hsign (.plain hne hdigits)
    · obtain ⟨hlead, hfull⟩ := hform.resolve_left hgroups
      obtain ⟨text, rfl, htext⟩ := exists_groups hsplit hfull
      have hne : lead ≠ [] := by
        rintro rfl
        cases hlead
      rw [Decimal.readInt_eq_some, Decimal.takeSign_append hne] at hread
      obtain ⟨m, hm, rfl⟩ := hread
      obtain ⟨-, hdigits, rfl⟩ := Decimal.readNat_eq_some hm
      rw [List.forall_mem_append] at hdigits
      obtain ⟨sign, hsign, hsigned⟩ := Decimal.exists_sign lead
      rw [hsigned, isLeadGroup_sign_append hsign hdigits.1] at hlead
      have hmagnitude := Magnitude.grouped hdigits.1 hlead htext
        (mt htext.eq_nil_iff.mpr (ne_nil_of_flatten hfull hgroups))
      have hwritten := WritesInteger.intro hsign hmagnitude
      rwa [← List.append_assoc, ← hsigned] at hwritten
  · rintro ⟨hsign, hmagnitude⟩
    rename_i sign text digits negative
    have hsigned {cs : List Char} (hcs : ∀ c ∈ cs, isDigit c = true) :
        ∀ c ∈ sign ++ cs, locale.isGroup c = false :=
      List.forall_mem_append.mpr ⟨fun c hc => (isGroup_of_mem_sign hsign c hc).1,
        fun c hc => isGroup_of_isPlain (isPlain_of_isDigit (hcs c hc)) locale⟩
    refine Option.bind_eq_some_iff.mpr ⟨sign ++ digits, ?_, ?_⟩
    · cases hmagnitude with
      | plain hne hdigits =>
          rw [joinGroups_eq_some (List.splitOnP_eq_singleton (hsigned hdigits))]
          exact ⟨.inl rfl, List.append_nil _⟩
      | grouped hlead hlength hgroups hne =>
          obtain ⟨groups, hsplit, hfull, rfl⟩ := hgroups.exists_splitOnP (hsigned hlead)
          rw [← List.append_assoc, joinGroups_eq_some hsplit, isLeadGroup_sign_append hsign hlead]
          exact ⟨.inr ⟨hlength, hfull⟩, List.append_assoc _ _ _⟩
    · refine Decimal.readInt_eq_some_iff.mpr
        ⟨sign, negative, digits, hsign, hmagnitude.ne_nil, hmagnitude.isDigit, rfl, rfl⟩

theorem WritesInteger.decimal_notMem (h : WritesInteger locale cs n) : locale.decimal ∉ cs := by
  obtain ⟨hsign, hmagnitude⟩ := h
  intro hmem
  rcases List.mem_append.mp hmem with hmem | hmem
  · exact (isGroup_of_mem_sign hsign _ hmem).2 rfl
  · exact hmagnitude.ne_decimal _ hmem rfl

theorem readInt_point (joined fraction : List Char) :
    readInt (joined ++ '.' :: fraction) = none := by
  by_contra hsome
  obtain ⟨n, hread⟩ := Option.ne_none_iff_exists'.mp hsome
  obtain ⟨sign, negative, digits, hsign, -, hdigits, htext, -⟩ :=
    Decimal.readInt_eq_some_iff.mp hread
  have hpoint : '.' ∈ sign ++ digits := by simp [← htext]
  rcases List.mem_append.mp hpoint with hmem | hmem
  · cases hsign <;> revert hmem <;> decide
  · cases hdigits _ hmem

theorem exists_splitDecimal (h : locale.decimal ∈ cs) :
    ∃ integral fraction, locale.splitDecimal cs = (integral, some fraction) := by
  rw [splitDecimal]
  split
  · rename_i hdrop
    have hall := List.dropWhile_eq_nil_iff.mp hdrop _ h
    simp at hall
  · exact ⟨_, _, rfl⟩

-- The decimal separator of a locale stays in a plain form as a point, and no integer has one.
theorem readInt_normalizeNumber :
    (locale.normalizeNumber cs).bind readInt = some n ↔
      WritesInteger locale (Text.trim cs) n := by
  rw [← readInt_joinGroups]
  by_cases hdecimal : locale.decimal ∈ Text.trim cs
  · refine iff_of_false ?_ fun h => (readInt_joinGroups.mp h).decimal_notMem hdecimal
    obtain ⟨integral, fraction, hsplit⟩ := exists_splitDecimal hdecimal
    rw [normalizeNumber, hsplit]
    intro h
    obtain ⟨plain, hplain, hread⟩ := Option.bind_eq_some_iff.mp h
    obtain ⟨joined, -, hplain⟩ := Option.bind_eq_some_iff.mp hplain
    dsimp only at hplain
    split at hplain
    · cases hplain
    · obtain rfl := Option.some.inj hplain
      rw [readInt_point] at hread
      cases hread
  · rw [normalizeNumber, splitDecimal_of_notMem hdecimal]
    simp

end Locale

end Sieve

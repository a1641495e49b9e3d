import Sieve.Proofs.Decimal.Digits
import Sieve.Sql.Dialect
import Sieve.Text.Blank

-- How a server cuts a statement into tokens.
namespace Sieve.Sql

-- Blanks are no tokens. Quoted tokens stand without their quotes.
inductive Token where
  | word (text : String)
  | sign (c : Char)
  | identifier (name : String)
  | literal (text : String)
  | placeholder (number : Option Nat)
  deriving DecidableEq

def Token.isPlaceholder : Token → Bool
  | placeholder _ => true
  | _ => false

inductive Quote where
  | single
  | double
  | backtick
  deriving DecidableEq

namespace Quote

def char : Quote → Char
  | single => '\x27'
  | double => '"'
  | backtick => '\x60'

def of? (c : Char) : Option Quote :=
  [single, double, backtick].find? fun quote => quote.char = c

theorem of?_char (quote : Quote) : of? quote.char = some quote := by
  cases quote <;> decide

end Quote

namespace Dialect

def reads (d : Dialect) (quote : Quote) : Bool :=
  d ≠ postgres || quote ≠ .backtick

-- What stands between two quotes.
def quoted (d : Dialect) (quote : Quote) (content : List Char) : Token :=
  if quote = .single || (d = mysql && quote = .double) then .literal (String.ofList content)
  else .identifier (String.ofList content)

-- The quote around the names of columns.
def nameQuote : Dialect → Quote
  | postgres | sqlite => .double
  | mysql => .backtick

theorem delimiter_eq (d : Dialect) : d.delimiter = d.nameQuote.char := by
  cases d <;> rfl

-- The placeholder for the parameter at a place counted from zero.
def placeholderToken (d : Dialect) (place : Nat) : Token :=
  .placeholder (if d = postgres then some (place + 1) else none)

end Dialect

-- Where a lexer stands: which token has begun, and what there is of it. Behind a quote the token
-- goes on if the quote comes again.
inductive Lexer where
  | between
  | word (text : List Char)
  | dollar (digits : List Char)
  | inside (quote : Quote) (content : List Char)
  | behind (quote : Quote) (content : List Char)
  deriving DecidableEq

namespace Lexer

def isWord (c : Char) : Bool :=
  !Text.isBlank c && (c.isAlphanum || c = '_' || c = '$' || 128 ≤ c.toNat)

-- The token that has begun, with one more character of it.
def extended? : Lexer → Char → Option Lexer
  | between, _ => none
  | word text, c => if isWord c then some (word (text ++ [c])) else none
  | dollar digits, c => if Decimal.isDigit c then some (dollar (digits ++ [c])) else none
  | inside quote content, c =>
    some (if c = quote.char then behind quote content else inside quote (content ++ [c]))
  | behind quote content, c => if c = quote.char then some (inside quote (content ++ [c])) else none

-- The tokens that there are if the token that has begun ends here.
def ended? (d : Dialect) : Lexer → Option (List Token)
  | between => some []
  | word text => some [.word (String.ofList text)]
  | dollar digits =>
    match Decimal.readNat digits with
    | some number => some [.placeholder (some number)]
    | none => some [.sign '$']
  | inside _ _ => none
  | behind quote content => some [d.quoted quote content]

-- The first character of a token.
def begin (d : Dialect) (c : Char) : List Token × Lexer :=
  match Quote.of? c with
  | some quote => if d.reads quote then ([], inside quote []) else ([.sign c], between)
  | none =>
    if c = '$' && d = .postgres then ([], dollar [])
    else if isWord c then ([], word [c])
    else if Text.isBlank c then ([], between)
    else if c = '?' && d ≠ .postgres then ([.placeholder none], between)
    else ([.sign c], between)

def step (d : Dialect) (lexer : Lexer) (c : Char) : List Token × Lexer :=
  match lexer.extended? c with
  | some next => ([], next)
  | none => ((lexer.ended? d).getD [] ++ (begin d c).1, (begin d c).2)

def walk (d : Dialect) (lexer : Lexer) : List Char → List Token × Lexer
  | [] => ([], lexer)
  | c :: rest =>
    let (tokens, next) := lexer.step d c
    let (more, last) := next.walk d rest
    (tokens ++ more, last)

end Lexer

-- The tokens of a statement. There are none if a quote is left open.
def lex (d : Dialect) (sql : String) : Option (List Token) :=
  let (tokens, last) := Lexer.between.walk d sql.toList
  (last.ended? d).map (tokens ++ ·)

namespace Lexer

variable {d : Dialect}

theorem walk_append (lexer : Lexer) (cs more : List Char) :
    lexer.walk d (cs ++ more) =
      ((lexer.walk d cs).1 ++ ((lexer.walk d cs).2.walk d more).1,
        ((lexer.walk d cs).2.walk d more).2) := by
  induction cs generalizing lexer with
  | nil => rfl
  | cons c rest ih => simp [walk, ih, List.append_assoc]

-- A character that is a token of its own, or none, outside quotes.
def breaks (c : Char) : Bool :=
  !isWord c && (Quote.of? c).isNone

theorem isWord_of_isDigit {c : Char} (h : Decimal.isDigit c = true) : isWord c = true := by
  have hrange : 48 ≤ c.toNat ∧ c.toNat ≤ 57 := by
    rw [Decimal.isDigit, Bool.and_eq_true, decide_eq_true_eq, decide_eq_true_eq] at h
    exact h
  have hblank : Text.isBlank c = false := by
    simp [Text.isBlank, Text.CharRanges.covers, Text.blankRanges]
    omega
  rw [Decimal.isDigit_eq] at h
  simp [isWord, hblank, Char.isAlphanum, h]

theorem breaks_of_isBlank {c : Char} (h : Text.isBlank c = true) : breaks c = true := by
  have hquote : Quote.of? c = none := by
    cases hquote : Quote.of? c with
    | none => rfl
    | some quote =>
        obtain rfl : quote.char = c := by simpa using List.find?_some hquote
        cases quote <;> exact absurd h (by decide)
  simp [breaks, isWord, h, hquote]

theorem begin_of_isBlank {c : Char} (h : Text.isBlank c = true) : begin d c = ([], between) := by
  have hquote : Quote.of? c = none := by simpa [breaks, isWord, h] using breaks_of_isBlank h
  have hdollar : c ≠ '$' := by
    rintro rfl
    exact absurd h (by decide)
  simp [begin, hquote, hdollar, isWord, h]

theorem begin_of_breaks {c : Char} (h : breaks c = true) : (begin d c).2 = between := by
  have hdollar : c ≠ '$' := by
    rintro rfl
    exact absurd h (by decide)
  simp only [breaks, Bool.and_eq_true, Bool.not_eq_true', Option.isNone_iff_eq_none] at h
  simp only [begin, h.1, h.2, hdollar, decide_false, Bool.false_and, Bool.false_eq_true, if_false]
  split
  · rfl
  · split <;> rfl

-- Such a character ends the token that has begun.
theorem step_of_breaks {lexer : Lexer} {pending : List Token} {c : Char} (h : breaks c = true)
    (hended : lexer.ended? d = some pending) :
    lexer.step d c = (pending ++ (begin d c).1, between) := by
  have hbegin := begin_of_breaks (d := d) h
  simp only [breaks, Bool.and_eq_true, Bool.not_eq_true', Option.isNone_iff_eq_none] at h
  have hextended : lexer.extended? c = none := by
    cases lexer with
    | between => rfl
    | word text => simp [extended?, h.1]
    | dollar digits =>
        have hdigit : Decimal.isDigit c ≠ true := by
          intro hdigit
          exact Bool.false_ne_true (h.1.symm.trans (isWord_of_isDigit hdigit))
        simp [extended?, hdigit]
    | inside quote content => cases hended
    | behind quote content =>
        have hquote : c ≠ quote.char := by
          rintro rfl
          exact absurd h.2 (by simp [Quote.of?_char])
        simp [extended?, hquote]
  rw [step, hextended, hended, hbegin]
  rfl

theorem walk_of_breaks {lexer : Lexer} {pending : List Token} {c : Char} (rest : List Char)
    (hc : breaks c = true) (hended : lexer.ended? d = some pending) :
    lexer.walk d (c :: rest) =
      (pending ++ (between.walk d (c :: rest)).1, (between.walk d (c :: rest)).2) := by
  have hbetween : between.step d c = ([] ++ (begin d c).1, between) := step_of_breaks hc rfl
  simp only [walk, step_of_breaks hc hended, hbetween, List.append_assoc, List.nil_append]

-- Blanks at the end only end the token that has begun.
theorem ended?_of_walk_blanks {lexer : Lexer} {pending : List Token} {cs : List Char}
    (hcs : ∀ c ∈ cs, Text.isBlank c = true) (h : (lexer.walk d cs).2.ended? d = some pending) :
    lexer.ended? d = some ((lexer.walk d cs).1 ++ pending) := by
  induction cs generalizing lexer with
  | nil => exact h
  | cons c rest ih =>
      rw [List.forall_mem_cons] at hcs
      have hrest : (lexer.step d c).2.ended? d =
          some (((lexer.step d c).2.walk d rest).1 ++ pending) := ih hcs.2 h
      cases hended : lexer.ended? d with
      | some before =>
          have hstep := step_of_breaks (breaks_of_isBlank hcs.1) hended
          rw [begin_of_isBlank hcs.1, List.append_nil] at hstep
          rw [hstep] at hrest
          simp only [walk, hstep, List.append_assoc, ← Option.some.inj hrest, List.append_nil]
      | none =>
          -- Blanks leave a quote open.
          obtain ⟨quote, content, rfl⟩ : ∃ quote content, lexer = inside quote content := by
            cases lexer with
            | inside quote content => exact ⟨quote, content, rfl⟩
            | dollar digits =>
                rw [ended?] at hended
                split at hended <;> cases hended
            | _ => cases hended
          have hquote : c ≠ quote.char := by
            rintro rfl
            cases quote <;> exact absurd hcs.1 (by decide)
          simp [step, extended?, hquote, ended?] at hrest

end Lexer

-- A text that has these tokens whatever it stands behind, and ends with the last of them.
def Solid (d : Dialect) (text : String) (tokens : List Token) : Prop :=
  ∀ lexer pending, Lexer.ended? d lexer = some pending →
    lexer.walk d text.toList = (pending ++ tokens, .between)

variable {d : Dialect} {s t u : String} {a b c : List Token}

theorem lex_eq_some_iff : lex d s = some a ↔
    ∃ pending, (Lexer.between.walk d s.toList).2.ended? d = some pending ∧
      (Lexer.between.walk d s.toList).1 ++ pending = a := by
  rw [lex, Option.map_eq_some_iff]

theorem solid_of_walk (hhead : s.toList.head?.any Lexer.breaks = true)
    (h : Lexer.between.walk d s.toList = (a, .between)) : Solid d s a := by
  intro lexer pending hended
  cases hs : s.toList with
  | nil => simp [hs] at hhead
  | cons first rest =>
      rw [hs] at hhead h
      rw [Lexer.walk_of_breaks rest hhead hended, h]

-- A fixed text can be tried out on each server.
theorem solid_of_walks (h : s.toList.head?.any Lexer.breaks = true ∧
    ∀ d ∈ [Dialect.postgres, .mysql, .sqlite], Lexer.between.walk d s.toList = (a, .between)) :
    Solid d s a :=
  solid_of_walk h.1 (h.2 d (by cases d <;> decide))

namespace Solid

theorem append (hs : Solid d s a) (ht : Solid d t b) : Solid d (s ++ t) (a ++ b) := by
  intro lexer pending hended
  rw [String.toList_append, Lexer.walk_append, hs lexer pending hended, ht .between [] rfl,
    List.append_assoc]
  rfl

-- Between such texts stands any text that has tokens.
theorem around (hs : Solid d s a) (ht : lex d t = some b) (hu : Solid d u c) :
    Solid d (s ++ t ++ u) (a ++ b ++ c) := by
  intro lexer pending hended
  obtain ⟨last, hlast, rfl⟩ := lex_eq_some_iff.mp ht
  simp only [String.toList_append, Lexer.walk_append, hs lexer pending hended, hu _ last hlast,
    List.append_assoc]

theorem lex (h : Solid d s a) : lex d s = some a := by
  rw [Sql.lex, h .between [] rfl]
  simp [Lexer.ended?]

end Solid

-- A text with tokens, and behind it one that is solid.
theorem lex_append (hs : lex d s = some a) (ht : Solid d t b) : lex d (s ++ t) = some (a ++ b) := by
  obtain ⟨last, hlast, rfl⟩ := lex_eq_some_iff.mp hs
  rw [lex_eq_some_iff, String.toList_append, Lexer.walk_append, ht _ last hlast]
  exact ⟨[], rfl, by simp⟩

-- A text whose last token has ended, one with tokens, and behind them one that is solid.
theorem lex_around (hs : Lexer.between.walk d s.toList = (a, .between)) (ht : lex d t = some b)
    (hu : Solid d u c) : lex d (s ++ t ++ u) = some (a ++ b ++ c) := by
  obtain ⟨last, hlast, rfl⟩ := lex_eq_some_iff.mp ht
  rw [lex_eq_some_iff]
  simp only [String.toList_append, Lexer.walk_append, hs, hu _ last hlast, List.append_assoc]
  exact ⟨[], rfl, by simp⟩

-- Two texts with tokens, and a solid one between them.
theorem lex_append_append (hs : lex d s = some a) (ht : Solid d t b) (hu : lex d u = some c) :
    lex d (s ++ t ++ u) = some (a ++ b ++ c) := by
  obtain ⟨last, hlast, rfl⟩ := lex_eq_some_iff.mp hs
  obtain ⟨pending, hpending, rfl⟩ := lex_eq_some_iff.mp hu
  rw [lex_eq_some_iff]
  simp only [String.toList_append, Lexer.walk_append, ht _ last hlast, hpending, List.append_assoc]
  exact ⟨pending, rfl, rfl⟩

-- A statement without the blanks at its end.
theorem lex_trimEnd (h : lex d s = some a) :
    lex d (String.ofList (Text.trimEnd s.toList)) = some a := by
  obtain ⟨blanks, hblanks, hsplit⟩ : ∃ blanks, (∀ c ∈ blanks, Text.isBlank c = true) ∧
      s.toList = Text.trimEnd s.toList ++ blanks := by
    refine ⟨(s.toList.reverse.takeWhile Text.isBlank).reverse, fun c hc => ?_, ?_⟩
    · exact List.all_eq_true.mp List.all_takeWhile c (List.mem_reverse.mp hc)
    · rw [Text.trimEnd, ← List.reverse_append, List.takeWhile_append_dropWhile,
        List.reverse_reverse]
  rw [lex_eq_some_iff] at h ⊢
  rw [String.toList_ofList]
  generalize Text.trimEnd s.toList = body at hsplit ⊢
  rw [hsplit, Lexer.walk_append] at h
  obtain ⟨pending, hpending, htokens⟩ := h
  exact ⟨_, Lexer.ended?_of_walk_blanks hblanks hpending, by rw [← htokens, List.append_assoc]⟩

-- A quote in a name stands twice, and so the name ends where its last quote stands.
theorem Lexer.walk_quoted (quote : Quote) (content cs : List Char) :
    (inside quote content).walk d
        ((cs.flatMap fun c => if c = quote.char then [c, c] else [c]) ++ [quote.char]) =
      ([], behind quote (content ++ cs)) := by
  induction cs generalizing content with
  | nil => simp [walk, step, extended?]
  | cons c rest ih =>
      rw [List.flatMap_cons, List.append_assoc, List.append_cons content c rest, ← ih]
      split
      · rename_i heq
        simp [walk, step, extended?, heq]
      · rename_i hne
        simp [walk, step, extended?, hne]

theorem lex_quote (d : Dialect) (name : String) :
    lex d (d.quote name) = some [.identifier name] := by
  have hbegin : Lexer.between.step d d.nameQuote.char = ([], .inside d.nameQuote []) := by
    cases d <;> rfl
  have hquoted : d.quoted d.nameQuote name.toList = .identifier name := by
    cases d <;> simp [Dialect.quoted, Dialect.nameQuote]
  rw [lex_eq_some_iff, Dialect.quote, Dialect.delimiter_eq, String.toList_ofList, List.append_assoc]
  simp [Lexer.walk, hbegin, Lexer.walk_quoted, Lexer.ended?, hquoted]

theorem Lexer.walk_digits (digits : List Char) {cs : List Char}
    (hcs : ∀ c ∈ cs, Decimal.isDigit c = true) :
    (dollar digits).walk d cs = ([], dollar (digits ++ cs)) := by
  induction cs generalizing digits with
  | nil => simp [walk]
  | cons c rest ih =>
      rw [List.forall_mem_cons] at hcs
      simp [walk, step, extended?, hcs.1, ih (digits ++ [c]) hcs.2]

theorem lex_placeholder (d : Dialect) (place : Nat) :
    lex d (d.placeholder place) = some [d.placeholderToken place] := by
  have hmark : lex .mysql "?" = some [.placeholder none] ∧
      lex .sqlite "?" = some [.placeholder none] := by decide
  cases d with
  | postgres =>
      have hdigits : ∀ c ∈ Decimal.natDigits (place + 1), Decimal.isDigit c = true :=
        fun c => Decimal.isDigit_of_mem_natDigits
      have hplaceholder : (Dialect.postgres.placeholder place).toList =
          '$' :: Decimal.natDigits (place + 1) := by
        simp [Dialect.placeholder, Decimal.renderNat]
      have hbegin : Lexer.between.step .postgres '$' = ([], .dollar []) := rfl
      rw [lex_eq_some_iff, hplaceholder]
      simp [Lexer.walk, hbegin, Lexer.walk_digits [] hdigits, Lexer.ended?,
        Dialect.placeholderToken, Decimal.readNat_natDigits]
  | mysql => exact hmark.1
  | sqlite => exact hmark.2

end Sieve.Sql

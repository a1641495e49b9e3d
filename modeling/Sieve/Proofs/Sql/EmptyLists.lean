import Mathlib.Data.List.Chain
import Sieve.Proofs.Condition.Parts
import Sieve.Proofs.Sql.Columns
import Sieve.Proofs.Sql.Reading

-- Where a statement has parentheses with nothing between them.
namespace Sieve.Sql

def Token.sign? : Token → Option Char
  | sign c => some c
  | _ => none

namespace Symbol

def sign? : Symbol → Option Char
  | token t => t.sign?
  | bound _ => none

-- Signs one behind the other that are not a parenthesis opened and closed.
def Apart (first second : Option Char) : Prop :=
  first = some '(' → second ≠ some ')'

instance (first second : Option Char) : Decidable (Apart first second) :=
  inferInstanceAs (Decidable (first = some '(' → second ≠ some ')'))

-- Symbols that leave nothing empty, neither parentheses around them nor any among them.
def Tight (symbols : List Symbol) : Prop :=
  (some '(' :: symbols.map sign? ++ [some ')']).IsChain Apart

variable {symbols more : List Symbol}

theorem Tight.append (h : Tight symbols) (h' : Tight more) : Tight (symbols ++ more) := by
  obtain ⟨hopen, -, hlast⟩ := List.isChain_append.mp h
  obtain ⟨-, hclose⟩ := List.isChain_cons.mp h'
  have hsymbols : some '(' :: (symbols ++ more).map sign? ++ [some ')'] =
      (some '(' :: symbols.map sign?) ++ (more.map sign? ++ [some ')']) := by
    simp
  rw [Tight, hsymbols, List.isChain_append]
  exact ⟨hopen, hclose, fun x hx y _ hparenthesis => absurd rfl (hlast x hx _ rfl hparenthesis)⟩

theorem Tight.parenthesised (h : Tight symbols) : Tight (parenthesised symbols) := by
  have hsymbols : some '(' :: (Symbol.parenthesised symbols).map sign? ++ [some ')'] =
      some '(' :: ((some '(' :: symbols.map sign? ++ [some ')']) ++ [some ')']) := by
    simp [Symbol.parenthesised, sign?, Token.sign?]
  rw [Tight, hsymbols, List.isChain_cons, List.isChain_append]
  refine ⟨?_, h, List.isChain_singleton _, ?_⟩
  · intro y hy
    cases hy
    exact by decide
  · intro x hx
    rw [List.getLast?_concat] at hx
    cases hx
    exact fun _ _ hopen => absurd hopen (by decide)

theorem tight_singleton {symbol : Symbol}
    (h : symbol.sign? ≠ some '(' ∧ symbol.sign? ≠ some ')') : Tight [symbol] :=
  .cons_cons (fun _ => h.2) (.cons_cons (fun hopen => absurd hopen h.1) (.singleton _))

theorem tight_of_forall {first : Symbol} {rest : List Symbol}
    (h : ∀ symbol ∈ first :: rest, symbol.sign? ≠ some '(' ∧ symbol.sign? ≠ some ')') :
    Tight (first :: rest) := by
  induction rest generalizing first with
  | nil => exact tight_singleton (h first (.head _))
  | cons next rest ih =>
      rw [List.forall_mem_cons] at h
      exact (tight_singleton h.1).append (ih h.2)

theorem map_sign?_tokens (d : Dialect) (place : Nat) (symbols : List Symbol) :
    (tokens d place symbols).map Token.sign? = symbols.map sign? := by
  induction symbols generalizing place with
  | nil => rfl
  | cons symbol rest ih =>
      cases symbol with
      | token t => rw [tokens, List.map_cons, List.map_cons, ih, sign?]
      | bound value =>
          rw [tokens, List.map_cons, List.map_cons, ih]
          cases d <;> rfl

-- Tokens that stand among those of some symbols, if they are no placeholders.
theorem infix_tokens {own : List Token} (d : Dialect) (place : Nat) (h : said own <:+: symbols) :
    own <:+: tokens d place symbols := by
  obtain ⟨before, after, rfl⟩ := h
  rw [tokens_append, tokens_append, tokens_said]
  exact List.infix_append _ _ _

end Symbol

open Sieve.Sql.Symbol (said parenthesised Tight tight_of_forall)

variable {d : Dialect}

theorem tight_said {first : Token} {rest : List Token}
    (h : ∀ token ∈ first :: rest, token.sign? ≠ some '(' ∧ token.sign? ≠ some ')') :
    Tight (said (first :: rest)) := by
  rw [Symbol.said_cons]
  refine tight_of_forall fun symbol hsymbol => ?_
  rw [← Symbol.said_cons, said, List.mem_map] at hsymbol
  obtain ⟨token, htoken, rfl⟩ := hsymbol
  exact h token htoken

theorem tight_bound (value : Value) : Tight [.bound value] :=
  Symbol.tight_singleton (by simp [Symbol.sign?])

theorem tight_word (text : String) : Tight (said [.word text]) :=
  tight_said (by simp [Token.sign?])

theorem tight_dotted {names : List String} (hne : names ≠ []) : Tight (said (dotted names)) := by
  induction names with
  | nil => exact absurd rfl hne
  | cons name rest ih =>
      cases rest with
      | nil => exact tight_said (by simp [Token.sign?])
      | cons next rest =>
          have hname : Tight (said [.identifier name, .sign '.']) :=
            tight_said (by simp [Token.sign?])
          exact hname.append (ih (List.cons_ne_nil _ _))

theorem tight_comparison (op : Comparison) : Tight (said (comparisonTokens op)) := by
  cases op <;> exact tight_said (by decide)

section Column

variable {field : FieldRef} {part : Condition} {column : Column}

theorem Column.names_ne_nil_of_ofField (h : Column.ofField field part = .ok column) :
    column.names ≠ [] := by
  intro hnil
  obtain ⟨hpath, -⟩ := Column.eq_of_ofField h
  rw [hnil] at hpath
  rw [Column.ofField, hpath] at h
  cases h

-- A column has a name, which stands between the parentheses of what looks at it.
theorem tight_column (h : Column.ofField field part = .ok column) :
    Tight (said (column.tokens d)) := by
  have hne := Column.names_ne_nil_of_ofField h
  obtain ⟨names, view⟩ := column
  have hnames : Tight (said (dotted names)) := tight_dotted hne
  cases view with
  | plain => exact hnames
  | lower =>
      simpa [Column.tokens, said, parenthesised] using
        (tight_word "LOWER").append hnames.parenthesised
  | day =>
      have hcast : Tight (said (dotted names ++ [.word "AS", .word "DATE"])) := by
        rw [Symbol.said_append]
        exact hnames.append (tight_said (by simp [Token.sign?]))
      cases d with
      | postgres | mysql =>
          simpa [Column.tokens, said, parenthesised] using
            (tight_word "CAST").append hcast.parenthesised
      | sqlite =>
          simpa [Column.tokens, said, parenthesised] using
            (tight_word "DATE").append hnames.parenthesised

-- A test of a column, with no parentheses of its own around what it asks for.
theorem tight_test (h : Column.ofField field part = .ok column) {asked : List Symbol}
    (hasked : Tight asked) : Tight (parenthesised (said (column.tokens d) ++ asked)) :=
  ((tight_column h).append hasked).parenthesised

end Column

namespace Clause

theorem tight_listed {values : List Value} (hne : values ≠ []) : Tight (listed values) := by
  induction values with
  | nil => exact absurd rfl hne
  | cons value rest ih =>
      cases rest with
      | nil => exact tight_bound value
      | cons next rest =>
          have hvalue : Tight [.bound value, .token (.sign ',')] :=
            tight_of_forall (by simp [Symbol.sign?, Token.sign?])
          exact hvalue.append (ih (List.cons_ne_nil _ _))

theorem tight_symbolsJoined {separator : String} {clauses : List Clause} (hne : clauses ≠ [])
    (h : ∀ clause ∈ clauses, Tight (clause.symbols d)) :
    Tight (symbolsJoined d (.word separator) clauses) := by
  induction clauses with
  | nil => exact absurd rfl hne
  | cons first rest ih =>
      rw [List.forall_mem_cons] at h
      cases rest with
      | nil => exact h.1
      | cons next rest =>
          have hrest := ih (List.cons_ne_nil _ _) h.2
          exact h.1.append ((tight_word separator).append hrest)

theorem symbols_infix_symbolsJoined (separator : Token) {clause : Clause} {clauses : List Clause}
    (h : clause ∈ clauses) : clause.symbols d <:+: symbolsJoined d separator clauses := by
  induction clauses with
  | nil => cases h
  | cons first rest ih =>
      cases rest with
      | nil =>
          rw [List.mem_singleton.mp h]
          exact List.infix_refl _
      | cons next rest =>
          change _ <:+:
            first.symbols d ++ .token separator :: symbolsJoined d separator (next :: rest)
          rcases List.mem_cons.mp h with rfl | hrest
          · exact (List.prefix_append _ _).isInfix
          · exact (ih hrest).trans (((List.suffix_cons _ _).trans (List.suffix_append _ _)).isInfix)

theorem ofParts_eq_ok_iff {conditions : List Condition} {clauses : List Clause} :
    ofParts conditions = .ok clauses ↔
      List.Forall₂ (fun part clause => ofCondition part = .ok clause) conditions clauses := by
  induction conditions generalizing clauses with
  | nil => simp [ofParts, eq_comm]
  | cons part rest ih =>
      rw [List.forall₂_cons_left_iff]
      refine (Outcome.bind_cons_eq_ok id).trans ?_
      simp only [ih, id, exists_and_left]

-- What a conjunction or a disjunction becomes: a truth value if there is nothing to join.
inductive OfFork (combinator : Combinator) (ofNothing : Bool) : List Condition → Clause → Prop where
  | nothing : OfFork combinator ofNothing [] (truth ofNothing)
  | joined {part : Condition} {rest : List Condition} {clauses : List Clause}
      (h : List.Forall₂ (fun part clause => ofCondition part = .ok clause) (part :: rest) clauses) :
      OfFork combinator ofNothing (part :: rest) (joined combinator clauses)

variable {conditions : List Condition} {clause : Clause} {combinator : Combinator}
  {ofNothing : Bool}

theorem OfFork.of_all (h : ofCondition (.all conditions) = .ok clause) :
    OfFork .and true conditions clause := by
  cases conditions with
  | nil =>
      cases h
      exact .nothing
  | cons part rest =>
      obtain ⟨clauses, hclauses, rfl⟩ := Outcome.map_eq_ok.mp h
      exact .joined (ofParts_eq_ok_iff.mp hclauses)

theorem OfFork.of_any (h : ofCondition (.any conditions) = .ok clause) :
    OfFork .or false conditions clause := by
  cases conditions with
  | nil =>
      cases h
      exact .nothing
  | cons part rest =>
      obtain ⟨clauses, hclauses, rfl⟩ := Outcome.map_eq_ok.mp h
      exact .joined (ofParts_eq_ok_iff.mp hclauses)

theorem tight_truth (b : Bool) : Tight ((truth b).symbols d) := by
  have hsaid : Tight (said [.word "1", .sign '=', .word (if b then "1" else "0")]) :=
    tight_said (by simp [Token.sign?])
  exact hsaid.parenthesised

theorem OfFork.tight (h : OfFork combinator ofNothing conditions clause)
    (hvalues : ∀ field, .oneOf field [] ∉ Condition.partsOf conditions)
    (hparts : ∀ part ∈ conditions, ∀ own, ofCondition part = .ok own →
      (∀ field, .oneOf field [] ∉ part.parts) → Tight (own.symbols d)) :
    Tight (clause.symbols d) := by
  cases h with
  | nothing => exact tight_truth ofNothing
  | @joined part rest clauses h =>
      have hne : clauses ≠ [] := by
        rintro rfl
        cases h
      refine (tight_symbolsJoined hne fun own hown => ?_).parenthesised
      obtain ⟨part, hpart, hclause⟩ := Outcome.exists_mem_of_forall₂ h.flip hown
      refine hparts part hpart own hclause fun field hfield => hvalues field ?_
      exact Condition.mem_partsOf.mpr ⟨part, hpart, hfield⟩

theorem OfFork.exists_clause (h : OfFork combinator ofNothing conditions clause) {part : Condition}
    (hpart : part ∈ Condition.partsOf conditions)
    (hparts : ∀ first ∈ conditions, ∀ around, ofCondition first = .ok around → part ∈ first.parts →
      ∃ own, ofCondition part = .ok own ∧ own.symbols d <:+: around.symbols d) :
    ∃ own, ofCondition part = .ok own ∧ own.symbols d <:+: clause.symbols d := by
  obtain ⟨first, hfirst, hinner⟩ := Condition.mem_partsOf.mp hpart
  cases h with
  | nothing => cases hfirst
  | joined h =>
      obtain ⟨around, haround, hclause⟩ := Outcome.exists_mem_of_forall₂ h hfirst
      obtain ⟨own, hown, hwithin⟩ := hparts first hfirst around hclause hinner
      refine ⟨own, hown, hwithin.trans ?_⟩
      refine (symbols_infix_symbolsJoined (.word combinator.symbol) haround).trans ?_
      exact ⟨[.token (.sign '(')], [.token (.sign ')')], rfl⟩

-- Each part of a condition is written in it as it is on its own.
theorem exists_clause_of_mem_parts {condition part : Condition} {clause : Clause}
    (h : ofCondition condition = .ok clause) (hpart : part ∈ condition.parts) :
    ∃ own, ofCondition part = .ok own ∧ own.symbols d <:+: clause.symbols d := by
  induction condition using Condition.treeInduction generalizing clause with
  | all conditions ih =>
      rcases List.mem_cons.mp hpart with rfl | hpart
      · exact ⟨clause, h, List.infix_refl _⟩
      · exact (OfFork.of_all h).exists_clause hpart fun first hfirst _ => ih first hfirst
  | any conditions ih =>
      rcases List.mem_cons.mp hpart with rfl | hpart
      · exact ⟨clause, h, List.infix_refl _⟩
      · exact (OfFork.of_any h).exists_clause hpart fun first hfirst _ => ih first hfirst
  | not inner ih =>
      rcases List.mem_cons.mp hpart with rfl | hpart
      · exact ⟨clause, h, List.infix_refl _⟩
      · obtain ⟨around, haround, rfl⟩ := Outcome.map_eq_ok.mp h
        obtain ⟨own, hown, hwithin⟩ := ih haround hpart
        refine ⟨own, hown, hwithin.trans ?_⟩
        refine ⟨said [.sign '(', .word "NOT", .word "COALESCE", .sign '('],
          said [.sign ',', .word "FALSE", .sign ')', .sign ')'], ?_⟩
        simp [symbols, parenthesised]
  | anyElement collection inner ih => cases h
  | constant _ | compare _ _ _ | oneOf _ _ | between _ _ _ | text _ _ _ | isNull _ | isEmpty _ _
    | custom _ _ _ =>
      rw [List.mem_singleton.mp hpart]
      exact ⟨clause, h, List.infix_refl _⟩

-- Nothing is left empty where no list of values is.
theorem tight_symbols {condition : Condition} {clause : Clause}
    (h : ofCondition condition = .ok clause)
    (hvalues : ∀ field, .oneOf field [] ∉ condition.parts) : Tight (clause.symbols d) := by
  induction condition using Condition.treeInduction generalizing clause with
  | constant b =>
      cases h
      exact tight_truth b
  | all conditions ih =>
      exact (OfFork.of_all h).tight (fun field hfield => hvalues field (.tail _ hfield))
        fun part hpart _ => ih part hpart
  | any conditions ih =>
      exact (OfFork.of_any h).tight (fun field hfield => hvalues field (.tail _ hfield))
        fun part hpart _ => ih part hpart
  | not inner ih =>
      obtain ⟨around, haround, rfl⟩ := Outcome.map_eq_ok.mp h
      have hinner : Tight (around.symbols d) :=
        ih haround fun field hfield => hvalues field (.tail _ hfield)
      have hclose : Tight (said [.sign ',', .word "FALSE"]) :=
        tight_said (by simp [Token.sign?])
      have hopen : Tight (said [.word "NOT", .word "COALESCE"]) :=
        tight_said (by simp [Token.sign?])
      exact (hopen.append (hinner.append hclose).parenthesised).parenthesised
  | compare field op value =>
      obtain ⟨column, hcolumn, rfl⟩ := Outcome.map_eq_ok.mp h
      have hop := (tight_comparison op).append (tight_bound value)
      simpa [symbols] using tight_test hcolumn hop
  | oneOf field values =>
      obtain ⟨column, hcolumn, rfl⟩ := Outcome.map_eq_ok.mp h
      have hne : values ≠ [] := by
        rintro rfl
        exact hvalues field (.head _)
      have hin := (tight_word "IN").append (tight_listed hne).parenthesised
      simpa [symbols] using tight_test hcolumn hin
  | between field low high =>
      obtain ⟨column, hcolumn, rfl⟩ := Outcome.map_eq_ok.mp h
      have hrange : Tight (.token (.word "BETWEEN") :: .bound low :: .token (.word "AND") ::
          [.bound high]) :=
        tight_of_forall (by simp [Symbol.sign?, Token.sign?])
      simpa [symbols] using tight_test hcolumn hrange
  | text field test pattern =>
      obtain ⟨column, hcolumn, rfl⟩ := Outcome.map_eq_ok.mp h
      have hlike : Tight (.token (.word "LIKE") :: .bound (.string (likePattern test pattern)) ::
          said [.word "ESCAPE", .literal "!"]) :=
        tight_of_forall (by simp [Symbol.sign?, Token.sign?])
      simpa [symbols] using tight_test hcolumn hlike
  | isNull field =>
      obtain ⟨column, hcolumn, rfl⟩ := Outcome.map_eq_ok.mp h
      have hnull : Tight (said [.word "IS", .word "NULL"]) :=
        tight_said (by simp [Token.sign?])
      simpa [symbols] using tight_test hcolumn hnull
  | isEmpty field target =>
      cases target with
      | collection => cases h
      | text =>
          obtain ⟨column, hcolumn, rfl⟩ := Outcome.map_eq_ok.mp h
          have hor : Tight (said [.word "IS", .word "NULL", .word "OR"]) :=
            tight_said (by simp [Token.sign?])
          have hblank : Tight (said [.sign '=', .literal ""]) :=
            tight_said (by simp [Token.sign?])
          have hagain := (hor.append (tight_column (d := d) hcolumn)).append hblank
          simpa [symbols] using tight_test hcolumn hagain
  | anyElement collection inner ih => cases h
  | custom field name test => cases h

-- A list of no values is written as one, and nothing else leaves parentheses empty.
theorem emptyList_infix_iff {condition : Condition} {clause : Clause}
    (h : ofCondition condition = .ok clause) (place : Nat) :
    [.word "IN", .sign '(', .sign ')'] <:+: Symbol.tokens d place (clause.symbols d) ↔
      ∃ field, .oneOf field [] ∈ condition.parts := by
  constructor
  · intro hwithin
    by_contra hnone
    have htight : Tight (clause.symbols d) := tight_symbols h (not_exists.mp hnone)
    have hsigns : [none, some '(', some ')'] <:+:
        some '(' :: (clause.symbols d).map Symbol.sign? ++ [some ')'] := by
      rw [← Symbol.map_sign?_tokens d place]
      exact (hwithin.map Token.sign?).trans ⟨[some '('], [some ')'], rfl⟩
    have hchain := List.IsChain.infix htight hsigns
    exact (List.isChain_cons_cons.mp hchain.tail).1 rfl rfl
  · rintro ⟨field, hfield⟩
    obtain ⟨own, hown, hwithin⟩ := exists_clause_of_mem_parts (d := d) h hfield
    obtain ⟨column, -, rfl⟩ := Outcome.map_eq_ok.mp hown
    refine Symbol.infix_tokens d place (List.IsInfix.trans ?_ hwithin)
    refine ⟨.token (.sign '(') :: said (column.tokens d), [.token (.sign ')')], ?_⟩
    simp [symbols, listed, parenthesised]

theorem ofParts_settleAll {clauses : List Clause}
    (hparts : ∀ part ∈ conditions, ∀ own, ofCondition part = .ok own →
      ofCondition (part.settle Condition.emptyFork?) = .ok own)
    (h : ofParts conditions = .ok clauses) :
    ofParts (Condition.settleAll Condition.emptyFork? conditions) = .ok clauses := by
  induction conditions generalizing clauses with
  | nil => exact h
  | cons part rest ih =>
      rw [List.forall_mem_cons] at hparts
      obtain ⟨clause, others, hclause, hothers, rfl⟩ := (Outcome.bind_cons_eq_ok id).mp h
      refine (Outcome.bind_cons_eq_ok id).mpr ?_
      exact ⟨clause, others, hparts.1 clause hclause, ih hparts.2 hothers, rfl⟩

theorem map_ofParts_settleAll {join : List Clause → Clause}
    (hparts : ∀ part ∈ conditions, ∀ own, ofCondition part = .ok own →
      ofCondition (part.settle Condition.emptyFork?) = .ok own)
    (h : (ofParts conditions).map join = .ok clause) :
    (ofParts (Condition.settleAll Condition.emptyFork? conditions)).map join = .ok clause := by
  obtain ⟨clauses, hclauses, rfl⟩ := Outcome.map_eq_ok.mp h
  exact Outcome.map_eq_ok.mpr ⟨clauses, ofParts_settleAll hparts hclauses, rfl⟩

-- Where nothing is joined stands the same as for the constant that it comes to.
theorem ofCondition_settle {condition : Condition} (h : ofCondition condition = .ok clause) :
    ofCondition (condition.settle Condition.emptyFork?) = .ok clause := by
  induction condition using Condition.treeInduction generalizing clause with
  | all conditions ih =>
      cases conditions with
      | nil => exact h
      | cons first rest => exact map_ofParts_settleAll (fun part hpart _ => ih part hpart) h
  | any conditions ih =>
      cases conditions with
      | nil => exact h
      | cons first rest => exact map_ofParts_settleAll (fun part hpart _ => ih part hpart) h
  | not inner ih =>
      obtain ⟨own, hown, rfl⟩ := Outcome.map_eq_ok.mp h
      exact Outcome.map_eq_ok.mpr ⟨own, ih hown, rfl⟩
  | anyElement collection inner ih => cases h
  | constant _ | compare _ _ _ | oneOf _ _ | between _ _ _ | text _ _ _ | isNull _ | isEmpty _ _
    | custom _ _ _ => exact h

end Clause

end Sieve.Sql

import Sieve.Proofs.Sql.Symbols
import Sieve.Proofs.Sql.Pieces

-- How the text of a clause is read.
namespace Sieve.Sql

def comparisonTokens (op : Comparison) : List Token :=
  (comparisonSign op).toList.map .sign

-- The tokens of a qualified name.
def dotted : List String → List Token
  | [] => []
  | [name] => [.identifier name]
  | name :: rest => .identifier name :: .sign '.' :: dotted rest

def Column.tokens (d : Dialect) (column : Column) : List Token :=
  match column.view with
  | .plain => dotted column.names
  | .lower => [.word "LOWER", .sign '('] ++ dotted column.names ++ [.sign ')']
  | .day =>
    match d with
    | .postgres | .mysql =>
      [.word "CAST", .sign '('] ++ dotted column.names ++ [.word "AS", .word "DATE", .sign ')']
    | .sqlite => [.word "DATE", .sign '('] ++ dotted column.names ++ [.sign ')']

@[simp]
theorem Symbol.filled_dotted (names : List String) : filled (said (dotted names)) = true := by
  rw [filled_said]
  induction names with
  | nil => rfl
  | cons name rest ih =>
      cases rest with
      | nil => rfl
      | cons next rest => exact ih

@[simp]
theorem Symbol.filled_column (d : Dialect) (column : Column) :
    filled (said (column.tokens d)) = true := by
  obtain ⟨names, view⟩ := column
  cases view with
  | plain => exact filled_dotted names
  | lower => simp [Column.tokens, Token.isPlaceholder]
  | day => cases d <;> simp [Column.tokens, Token.isPlaceholder]

@[simp]
theorem Symbol.filled_comparison (op : Comparison) :
    filled (said (comparisonTokens op)) = true := by
  cases op <;> decide

namespace Clause

open Sieve.Sql.Symbol (said parenthesised)

-- Parameters with commas between them.
def listed : List Value → List Symbol
  | [] => []
  | [value] => [.bound value]
  | value :: rest => .bound value :: .token (.sign ',') :: listed rest

mutual

def symbols (d : Dialect) : Clause → List Symbol
  | truth b => parenthesised (said [.word "1", .sign '=', .word (if b then "1" else "0")])
  | joined combinator clauses => parenthesised (symbolsJoined d (.word combinator.symbol) clauses)
  | not inner =>
    parenthesised (said [.word "NOT", .word "COALESCE"] ++
      parenthesised (inner.symbols d ++ said [.sign ',', .word "FALSE"]))
  | compare column op value =>
    parenthesised (said (column.tokens d ++ comparisonTokens op) ++ [.bound value])
  | oneOf column values =>
    parenthesised (said (column.tokens d ++ [.word "IN"]) ++ parenthesised (listed values))
  | between column low high =>
    parenthesised (said (column.tokens d ++ [.word "BETWEEN"]) ++
      .bound low :: said [.word "AND"] ++ [.bound high])
  | like column pattern =>
    parenthesised (said (column.tokens d ++ [.word "LIKE"]) ++
      .bound (.string pattern) :: said [.word "ESCAPE", .literal "!"])
  | isNull column => parenthesised (said (column.tokens d ++ [.word "IS", .word "NULL"]))
  | isBlank column =>
    parenthesised (said (column.tokens d ++ [.word "IS", .word "NULL", .word "OR"] ++
      column.tokens d ++ [.sign '=', .literal ""]))

def symbolsJoined (d : Dialect) (separator : Token) : List Clause → List Symbol
  | [] => []
  | [clause] => clause.symbols d
  | clause :: rest => clause.symbols d ++ .token separator :: symbolsJoined d separator rest

end

end Clause

-- Pieces that are read as these symbols wherever they stand.
structure Piece.Says (d : Dialect) (pieces : List Piece) (symbols : List Symbol) : Prop where
  values : Piece.params pieces = Symbol.values symbols
  solid : ∀ place, Solid d (Piece.render d place pieces) (Symbol.tokens d place symbols)

variable {d : Dialect}

namespace Piece.Says

variable {s : String} {tokens : List Token} {pieces more : List Piece}
  {symbols others : List Symbol}

theorem append (h : Says d pieces symbols) (h' : Says d more others) :
    Says d (pieces ++ more) (symbols ++ others) where
  values := by rw [params_append, Symbol.values_append, h.values, h'.values]
  solid := by
    intro place
    rw [render_append, Symbol.tokens_append, ← h.values]
    exact (h.solid place).append (h'.solid _)

theorem text (hs : Solid d s tokens) : Says d [.text s] (Symbol.said tokens) where
  values := (Symbol.values_said tokens).symm
  solid := by
    intro place
    rw [Symbol.tokens_said]
    simpa [render] using hs

-- A placeholder has tokens of its own if there is such a text on either side.
theorem bound (hs : Solid d s tokens) (value : Value) (h : Says d pieces symbols) :
    Says d (.text s :: .bound value :: pieces) (Symbol.said tokens ++ .bound value :: symbols) where
  values := by
    rw [Symbol.values_append, Symbol.values_said]
    exact congrArg (value :: ·) h.values
  solid := by
    intro place
    have hsolid := hs.around (lex_placeholder d place) (h.solid (place + 1))
    rw [Symbol.tokens_append, Symbol.tokens_said, Symbol.values_said]
    simpa [render, Symbol.tokens, String.append_assoc] using hsolid

end Piece.Says

theorem lex_dotted (names : List String) :
    lex d (".".intercalate (names.map d.quote)) = some (dotted names) := by
  have hpoint : Solid d "." [.sign '.'] := solid_of_walks (by decide)
  induction names with
  | nil => cases d <;> decide
  | cons name rest ih =>
      cases rest with
      | nil =>
          rw [List.map_singleton, String.intercalate_singleton]
          exact lex_quote d name
      | cons next rest =>
          rw [List.map_cons, List.map_cons, String.intercalate_cons_cons]
          exact lex_append_append (lex_quote d name) hpoint ih

theorem solid_close : Solid d ")" [.sign ')'] :=
  solid_of_walks (by decide)

theorem solid_open : Solid d "(" [.sign '('] :=
  solid_of_walks (by decide)

theorem lex_column (column : Column) : lex d (column.render d) = some (column.tokens d) := by
  obtain ⟨names, view⟩ := column
  have hnames := lex_dotted (d := d) names
  cases view with
  | plain => exact hnames
  | lower =>
      refine lex_around (s := "LOWER(") (u := ")") ?_ hnames solid_close
      cases d <;> decide
  | day =>
      have hcast {d : Dialect} : Lexer.between.walk d "CAST(".toList =
          ([.word "CAST", .sign '('], .between) := by cases d <;> decide
      have has {d : Dialect} : Solid d " AS DATE)" [.word "AS", .word "DATE", .sign ')'] :=
        solid_of_walks (by decide)
      cases d with
      | postgres => exact lex_around hcast hnames has
      | mysql => exact lex_around hcast hnames has
      | sqlite =>
          exact lex_around (s := "DATE(") (u := ")") (by decide) hnames solid_close

-- The beginning of a test, down to its first parameter or to its end.
theorem solid_column {u : String} {c : List Token} (column : Column) (hu : Solid d u c) :
    Solid d ("(" ++ column.render d ++ u) (.sign '(' :: column.tokens d ++ c) :=
  solid_open.around (lex_column column) hu

theorem says_boundList {s : String} {tokens : List Token} {pieces : List Piece}
    {symbols : List Symbol} (hs : Solid d s tokens) (h : Piece.Says d pieces symbols)
    (values : List Value) :
    Piece.Says d (.text s :: Clause.boundList values ++ pieces)
      (Symbol.said tokens ++ Clause.listed values ++ symbols) := by
  have hcomma : Solid d ", " [.sign ','] := solid_of_walks (by decide)
  induction values generalizing s tokens with
  | nil => simpa [Clause.boundList, Clause.listed] using (Piece.Says.text hs).append h
  | cons value rest ih =>
      cases rest with
      | nil => simpa [Clause.boundList, Clause.listed] using Piece.Says.bound hs value h
      | cons next rest =>
          simpa [Clause.boundList, Clause.listed, Symbol.said] using
            Piece.Says.bound hs value (ih hcomma)

namespace Clause

open Sieve.Sql.Symbol (said parenthesised)

theorem says_compare (column : Column) (op : Comparison) (value : Value) :
    Piece.Says d ((compare column op value).pieces d) ((compare column op value).symbols d) := by
  have hblank : Solid d " " [] := solid_of_walks (by decide)
  have hsign : Solid d (comparisonSign op) (comparisonTokens op) := by
    cases op <;> exact solid_of_walks (by decide)
  have htext := ((solid_column column hblank).append hsign).append hblank
  have hsaid := Piece.Says.bound htext value (.text solid_close)
  simpa [pieces, symbols, said, parenthesised] using hsaid

theorem says_oneOf (column : Column) (values : List Value) :
    Piece.Says d ((oneOf column values).pieces d) ((oneOf column values).symbols d) := by
  have hin : Solid d " IN (" [.word "IN", .sign '('] := solid_of_walks (by decide)
  have hclose : Solid d "))" [.sign ')', .sign ')'] := solid_of_walks (by decide)
  have hsaid := says_boundList (solid_column column hin) (.text hclose) values
  simpa [pieces, symbols, said, parenthesised] using hsaid

theorem says_between (column : Column) (low high : Value) :
    Piece.Says d ((between column low high).pieces d) ((between column low high).symbols d) := by
  have hbetween : Solid d " BETWEEN " [.word "BETWEEN"] := solid_of_walks (by decide)
  have hand : Solid d " AND " [.word "AND"] := solid_of_walks (by decide)
  have hsaid := Piece.Says.bound (solid_column column hbetween) low
    (.bound hand high (.text solid_close))
  simpa [pieces, symbols, said, parenthesised] using hsaid

theorem says_like (column : Column) (pattern : String) :
    Piece.Says d ((like column pattern).pieces d) ((like column pattern).symbols d) := by
  have hlike : Solid d " LIKE " [.word "LIKE"] := solid_of_walks (by decide)
  have hescape : Solid d " ESCAPE '!')" [.word "ESCAPE", .literal "!", .sign ')'] :=
    solid_of_walks (by decide)
  have hsaid := Piece.Says.bound (solid_column column hlike) (.string pattern) (.text hescape)
  simpa [pieces, symbols, said, parenthesised] using hsaid

theorem says_isNull (column : Column) :
    Piece.Says d ((isNull column).pieces d) ((isNull column).symbols d) := by
  have hnull : Solid d " IS NULL)" [.word "IS", .word "NULL", .sign ')'] :=
    solid_of_walks (by decide)
  have hsaid := Piece.Says.text (solid_column column hnull)
  simpa [pieces, symbols, said, parenthesised] using hsaid

theorem says_isBlank (column : Column) :
    Piece.Says d ((isBlank column).pieces d) ((isBlank column).symbols d) := by
  have hnull : Solid d " IS NULL OR " [.word "IS", .word "NULL", .word "OR"] :=
    solid_of_walks (by decide)
  have hempty : Solid d " = '')" [.sign '=', .literal "", .sign ')'] := solid_of_walks (by decide)
  have hsaid := Piece.Says.text
    ((solid_column column hnull).around (lex_column column) hempty)
  simpa [pieces, symbols, said, parenthesised] using hsaid

theorem says_truth (b : Bool) :
    Piece.Says d ((truth b).pieces d) ((truth b).symbols d) := by
  have htext : Solid d (if b then "(1 = 1)" else "(1 = 0)")
      [.sign '(', .word "1", .sign '=', .word (if b then "1" else "0"), .sign ')'] := by
    cases b <;> exact solid_of_walks (by decide)
  exact .text htext

theorem solid_separator (combinator : Combinator) :
    Solid d (" " ++ combinator.symbol ++ " ") [.word combinator.symbol] := by
  cases combinator <;> exact solid_of_walks (by decide)

mutual

-- A clause is read as what it says, wherever it stands.
theorem says_pieces (clause : Clause) : Piece.Says d (clause.pieces d) (clause.symbols d) := by
  match clause with
  | truth b => exact says_truth b
  | joined combinator [] =>
      have hsaid := (Piece.Says.text (d := d) solid_open).append (.text solid_close)
      simpa [pieces, piecesJoined, symbols, symbolsJoined, said, parenthesised] using hsaid
  | joined combinator (first :: rest) =>
      have hparts := says_piecesJoined (solid_separator (d := d) combinator) (first :: rest) nofun
      have hsaid := (Piece.Says.text solid_open).append (hparts.append (.text solid_close))
      simpa [pieces, symbols, said, parenthesised] using hsaid
  | not inner =>
      have hopen : Solid d "(NOT COALESCE(" [.sign '(', .word "NOT", .word "COALESCE", .sign '('] :=
        solid_of_walks (by decide)
      have hclose : Solid d ", FALSE))" [.sign ',', .word "FALSE", .sign ')', .sign ')'] :=
        solid_of_walks (by decide)
      have hsaid := (Piece.Says.text hopen).append (inner.says_pieces.append (.text hclose))
      simpa [pieces, symbols, said, parenthesised] using hsaid
  | compare column op value => exact says_compare column op value
  | oneOf column values => exact says_oneOf column values
  | between column low high => exact says_between column low high
  | like column pattern => exact says_like column pattern
  | isNull column => exact says_isNull column
  | isBlank column => exact says_isBlank column

theorem says_piecesJoined {separator : String} {token : Token} (h : Solid d separator [token])
    (clauses : List Clause) (hne : clauses ≠ []) :
    Piece.Says d (piecesJoined d separator clauses) (symbolsJoined d token clauses) := by
  match clauses with
  | [] => exact absurd rfl hne
  | [clause] => exact clause.says_pieces
  | clause :: next :: rest =>
      have hrest := says_piecesJoined h (next :: rest) nofun
      have hsaid := clause.says_pieces.append ((Piece.Says.text h).append hrest)
      simpa [piecesJoined, symbolsJoined, said] using hsaid

end

@[simp]
theorem filled_listed (values : List Value) : Symbol.filled (listed values) = true := by
  induction values with
  | nil => rfl
  | cons value rest ih =>
      cases rest with
      | nil => rfl
      | cons next rest => exact ih

mutual

-- A clause has no placeholders but those of its parameters.
theorem filled_symbols (clause : Clause) : Symbol.filled (clause.symbols d) = true := by
  match clause with
  | joined combinator clauses =>
      simp [symbols, parenthesised, Token.isPlaceholder,
        filled_symbolsJoined combinator.symbol clauses]
  | not inner => simp [symbols, parenthesised, Token.isPlaceholder, inner.filled_symbols]
  | truth b | compare column op value | oneOf column values | between column low high
    | like column pattern | isNull column | isBlank column =>
      simp [symbols, parenthesised, Token.isPlaceholder]

theorem filled_symbolsJoined (separator : String) (clauses : List Clause) :
    Symbol.filled (symbolsJoined d (.word separator) clauses) = true := by
  match clauses with
  | [] => rfl
  | [clause] => exact clause.filled_symbols
  | clause :: next :: rest =>
      have hrest := filled_symbolsJoined separator (next :: rest)
      simpa [symbolsJoined, clause.filled_symbols, Token.isPlaceholder] using hrest

end

end Clause

end Sieve.Sql

import Sieve.Proofs.Sql.Lexer
import Sieve.Sql.Fragment

-- What a statement says, and how its tokens and its parameters come together.
namespace Sieve.Sql

-- A token, or the value of a parameter in the place of its placeholder.
inductive Symbol where
  | token (token : Token)
  | bound (value : Value)

namespace Symbol

-- The tokens, the parameters counted from `place` on.
def tokens (d : Dialect) (place : Nat) : List Symbol → List Token
  | [] => []
  | token t :: rest => t :: tokens d place rest
  | bound _ :: rest => d.placeholderToken place :: tokens d (place + 1) rest

-- What has no parameters.
def said (tokens : List Token) : List Symbol :=
  tokens.map token

def value? : Symbol → Option Value
  | token _ => none
  | bound value => some value

def values (symbols : List Symbol) : List Value :=
  symbols.filterMap value?

@[simp]
theorem said_append (tokens more : List Token) : said (tokens ++ more) = said tokens ++ said more :=
  List.map_append

@[simp]
theorem said_cons (t : Token) (tokens : List Token) :
    said (t :: tokens) = .token t :: said tokens :=
  rfl

@[simp]
theorem said_nil : said [] = [] :=
  rfl

theorem values_append (symbols more : List Symbol) :
    values (symbols ++ more) = values symbols ++ values more :=
  List.filterMap_append

@[simp]
theorem values_cons_token (t : Token) (symbols : List Symbol) :
    values (.token t :: symbols) = values symbols :=
  rfl

@[simp]
theorem values_cons_bound (value : Value) (symbols : List Symbol) :
    values (.bound value :: symbols) = value :: values symbols :=
  rfl

theorem values_said (tokens : List Token) : values (said tokens) = [] := by
  simp [values, said, List.filterMap_map, Function.comp_def, value?]

theorem tokens_append (d : Dialect) (place : Nat) (symbols more : List Symbol) :
    tokens d place (symbols ++ more) =
      tokens d place symbols ++ tokens d (place + (values symbols).length) more := by
  induction symbols generalizing place with
  | nil => rfl
  | cons symbol rest ih =>
      cases symbol with
      | token t => rw [List.cons_append, tokens, ih, tokens, values_cons_token, List.cons_append]
      | bound value =>
          have hplace : place + 1 + (values rest).length =
              place + (value :: values rest).length := by
            rw [List.length_cons]
            omega
          rw [List.cons_append, tokens, ih, tokens, values_cons_bound, List.cons_append, hplace]

theorem tokens_said (d : Dialect) (place : Nat) (tokens : List Token) :
    Symbol.tokens d place (said tokens) = tokens := by
  induction tokens with
  | nil => rfl
  | cons t rest ih => exact congrArg (t :: ·) ih

-- Whether all placeholders stand for parameters.
def filled (symbols : List Symbol) : Bool :=
  symbols.all fun
    | token t => !t.isPlaceholder
    | bound _ => true

@[simp]
theorem filled_append (symbols more : List Symbol) :
    filled (symbols ++ more) = (filled symbols && filled more) :=
  List.all_append

@[simp]
theorem filled_cons_token (t : Token) (symbols : List Symbol) :
    filled (.token t :: symbols) = (!t.isPlaceholder && filled symbols) :=
  rfl

@[simp]
theorem filled_cons_bound (value : Value) (symbols : List Symbol) :
    filled (.bound value :: symbols) = filled symbols :=
  rfl

@[simp]
theorem filled_nil : filled [] = true :=
  rfl

theorem filled_said (tokens : List Token) :
    filled (said tokens) = tokens.all fun token => !token.isPlaceholder := by
  simp [filled, said, List.all_map, Function.comp_def]

-- The placeholders stand for the parameters in order.
theorem placeholders_tokens (d : Dialect) (place : Nat) {symbols : List Symbol}
    (h : filled symbols = true) :
    (tokens d place symbols).filter Token.isPlaceholder =
      (List.range' place (values symbols).length).map d.placeholderToken := by
  induction symbols generalizing place with
  | nil => rfl
  | cons symbol rest ih =>
      cases symbol with
      | token t =>
          obtain ⟨ht, hrest⟩ : t.isPlaceholder = false ∧ filled rest = true := by simpa using h
          rw [tokens, List.filter_cons, ht, if_neg Bool.false_ne_true, ih place hrest]
          rfl
      | bound value =>
          rw [tokens, List.filter_cons, if_pos (by rfl), ih (place + 1) h, values_cons_bound,
            List.length_cons, List.range'_succ, List.map_cons]

def parenthesised (symbols : List Symbol) : List Symbol :=
  .token (.sign '(') :: symbols ++ [.token (.sign ')')]

end Symbol

-- The place of the parameter that a placeholder stands for behind so many others. Numbers start at
-- one; without a number it is the next parameter.
def placeOf (passed : Nat) : Option Nat → Option Nat
  | none => some passed
  | some 0 => none
  | some (place + 1) => some place

-- Puts parameters in for placeholders.
def fill (params : List Value) (passed : Nat) : List Token → Option (List Symbol)
  | [] => some []
  | .placeholder number :: rest => do
    let place ← placeOf passed number
    let value ← params[place]?
    let symbols ← fill params (passed + 1) rest
    return .bound value :: symbols
  | token :: rest => do
    let symbols ← fill params passed rest
    return .token token :: symbols

-- What a statement says with its parameters.
def Fragment.read (d : Dialect) (fragment : Fragment) : Option (List Symbol) := do
  let tokens ← lex d fragment.sql
  fill fragment.params 0 tokens

theorem placeOf_placeholder (d : Dialect) (place : Nat) :
    ∃ number, d.placeholderToken place = .placeholder number ∧
      placeOf place number = some place := by
  cases d <;> exact ⟨_, rfl, rfl⟩

-- Each symbol comes back as it was.
theorem fill_tokens (d : Dialect) {symbols : List Symbol} (h : Symbol.filled symbols = true)
    (before : List Value) :
    fill (before ++ Symbol.values symbols) before.length (Symbol.tokens d before.length symbols) =
      some symbols := by
  induction symbols generalizing before with
  | nil => rfl
  | cons symbol rest ih =>
      cases symbol with
      | token t =>
          obtain ⟨ht, hrest⟩ : t.isPlaceholder = false ∧ Symbol.filled rest = true := by
            simpa using h
          have hfill := ih hrest before
          cases t with
          | placeholder number => cases ht
          | _ => simp [Symbol.tokens, fill, hfill]
      | bound value =>
          obtain ⟨number, hnumber, hplace⟩ := placeOf_placeholder d before.length
          have hfill := ih h (before ++ [value])
          rw [List.append_assoc, List.length_append] at hfill
          have hfill' : fill (before ++ value :: Symbol.values rest) (before.length + 1)
              (Symbol.tokens d (before.length + 1) rest) = some rest := hfill
          simp [Symbol.tokens, hnumber, fill, hplace, hfill']

end Sieve.Sql

import Sieve.Decimal.Layout
import Sieve.Json.Basic

namespace Sieve.Json

-- Doubles always show that they are doubles: by a point, or by an exponent outside the range
-- from 1e-5 up to 1e16.
def doubleLayout : Decimal.Layout where
  tie := .even
  isPositional first := -5 ≤ first && first ≤ 15
  wholeEnd := ".0"
  nan := "null"
  infinity := "null"

def renderDouble (x : Float) : String :=
  if x.isFinite then doubleLayout.render x else "null"

def Number.render : Number → String
  | .integer n => Decimal.renderInt n
  | .double x => renderDouble x

-- Quotes, backslashes and control characters are escaped, nothing else.
def escapeChar (c : Char) : List Char :=
  match c with
  | '"' => ['\\', '"']
  | '\\' => ['\\', '\\']
  | '\x08' => ['\\', 'b']
  | '\x0c' => ['\\', 'f']
  | '\n' => ['\\', 'n']
  | '\r' => ['\\', 'r']
  | '\t' => ['\\', 't']
  | _ =>
    if c.toNat < 0x20 then
      ['\\', 'u', '0', '0', Nat.digitChar (c.toNat / 16), Nat.digitChar (c.toNat % 16)]
    else [c]

def renderString (s : String) : String :=
  String.ofList (['"'] ++ s.toList.flatMap escapeChar ++ ['"'])

mutual

-- The text without any space.
def render : Json → String
  | .null => "null"
  | .bool b => if b then "true" else "false"
  | .number n => n.render
  | .string s => renderString s
  | .array items => "[" ++ renderItems items ++ "]"
  | .object members => "\x7b" ++ renderMembers members ++ "\x7d"

def renderItems : List Json → String
  | [] => ""
  | [item] => item.render
  | item :: rest => item.render ++ "," ++ renderItems rest

def renderMembers : List (String × Json) → String
  | [] => ""
  | [(name, value)] => renderString name ++ ":" ++ value.render
  | (name, value) :: rest => renderString name ++ ":" ++ value.render ++ "," ++ renderMembers rest

end

end Sieve.Json

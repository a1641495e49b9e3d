import Sieve.Json.Number
import Sieve.Json.Source

namespace Sieve.Json

def isSpace (c : Char) : Bool :=
  c = ' ' || c = '\t' || c = '\n' || c = '\r'

def skipSpace (cs : List Char) : List Char :=
  cs.dropWhile isSpace

-- A piece of a string: a character, or a code unit written by its number.
inductive Piece where
  | char (c : Char)
  | unit (n : Nat)

def hexDigit? (c : Char) : Option Nat :=
  if '0' ≤ c && c ≤ '9' then some (c.toNat - '0'.toNat)
  else if 'a' ≤ c && c ≤ 'f' then some (c.toNat - 'a'.toNat + 10)
  else if 'A' ≤ c && c ≤ 'F' then some (c.toNat - 'A'.toNat + 10)
  else none

def codeUnit? (a b c d : Char) : Option Nat := do
  let high := (← hexDigit? a) * 16 + (← hexDigit? b)
  let low := (← hexDigit? c) * 16 + (← hexDigit? d)
  return high * 256 + low

-- The character that a letter after a backslash stands for.
def unescape? (c : Char) : Option Char :=
  match c with
  | '"' => some '"'
  | '\\' => some '\\'
  | '/' => some '/'
  | 'b' => some '\x08'
  | 'f' => some '\x0c'
  | 'n' => some '\n'
  | 'r' => some '\r'
  | 't' => some '\t'
  | _ => none

-- Reads the rest of a string behind its opening quote; `read` holds the pieces so far, the last
-- one first. Control characters have to be escaped.
def takePieces (read : List Piece) : List Char → Option (List Piece × List Char)
  | [] => none
  | '"' :: rest => some (read.reverse, rest)
  | '\\' :: 'u' :: a :: b :: c :: d :: rest =>
    (codeUnit? a b c d).bind fun n => takePieces (.unit n :: read) rest
  | '\\' :: c :: rest => (unescape? c).bind fun c => takePieces (.char c :: read) rest
  | c :: rest => if c.toNat < 0x20 ∨ c = '\\' then none else takePieces (.char c :: read) rest

-- The text of the pieces: code units in pairs where they are surrogates, none of which may stand
-- alone.
def joinPieces : List Piece → Option (List Char)
  | [] => some []
  | .char c :: rest => (joinPieces rest).map (c :: ·)
  | .unit n :: rest =>
    if 0xd800 ≤ n ∧ n < 0xdc00 then
      match rest with
      | .unit m :: rest =>
        if 0xdc00 ≤ m ∧ m < 0xe000 then
          (joinPieces rest).map (Char.ofNat (0x10000 + (n - 0xd800) * 0x400 + (m - 0xdc00)) :: ·)
        else none
      | _ => none
    else if 0xdc00 ≤ n ∧ n < 0xe000 then none
    else (joinPieces rest).map (Char.ofNat n :: ·)

def takeString (cs : List Char) : Option (Option String × List Char) :=
  (takePieces [] cs).map fun (pieces, rest) => ((joinPieces pieces).map String.ofList, rest)

mutual

-- Reads a value off the front. Each call hands on one unit of `fuel` less; twice the length of
-- the text is enough, since no two nested calls read less than one character.
def takeValue : Nat → List Char → Option (Source × List Char)
  | 0, _ => none
  | fuel + 1, cs =>
    match skipSpace cs with
    | 'n' :: 'u' :: 'l' :: 'l' :: rest => some (.null, rest)
    | 't' :: 'r' :: 'u' :: 'e' :: rest => some (.bool true, rest)
    | 'f' :: 'a' :: 'l' :: 's' :: 'e' :: rest => some (.bool false, rest)
    | '"' :: rest => (takeString rest).map fun (s, rest) => (.string s, rest)
    | '[' :: rest =>
      match skipSpace rest with
      | ']' :: rest => some (.array [], rest)
      | rest => (takeItems fuel rest).map fun (items, rest) => (.array items, rest)
    | '\x7b' :: rest =>
      match skipSpace rest with
      | '\x7d' :: rest => some (.object [], rest)
      | rest => (takeMembers fuel rest).map fun (members, rest) => (.object members, rest)
    | rest => (takeNumeral rest).map fun (n, rest) => (.number n.number?, rest)

-- Reads the items of an array that has at least one, up to its closing bracket.
def takeItems : Nat → List Char → Option (List Source × List Char)
  | 0, _ => none
  | fuel + 1, cs => do
    let (item, rest) ← takeValue fuel cs
    match skipSpace rest with
    | ',' :: rest =>
      let (items, rest) ← takeItems fuel rest
      return (item :: items, rest)
    | ']' :: rest => return ([item], rest)
    | _ => none

-- Reads the members of an object that has at least one, up to its closing brace.
def takeMembers : Nat → List Char → Option (List (Option String × Source) × List Char)
  | 0, _ => none
  | fuel + 1, cs =>
    match skipSpace cs with
    | '"' :: rest => do
      let (name, rest) ← takeString rest
      match skipSpace rest with
      | ':' :: rest =>
        let (value, rest) ← takeValue fuel rest
        match skipSpace rest with
        | ',' :: rest =>
          let (members, rest) ← takeMembers fuel rest
          return ((name, value) :: members, rest)
        | '\x7d' :: rest => return ([(name, value)], rest)
        | _ => none
      | _ => none
    | _ => none

end

-- Reads a text that holds one value and spaces around it.
def Source.read (text : String) : Option Source :=
  let cs := text.toList
  match takeValue (2 * cs.length + 2) cs with
  | some (source, rest) => if (skipSpace rest).isEmpty then some source else none
  | none => none

-- How deep arrays and objects may be nested.
def maxDepth : Nat := 127

def read (text : String) : Option Json :=
  (Source.read text).bind (·.value? maxDepth)

end Sieve.Json

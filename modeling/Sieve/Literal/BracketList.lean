import Sieve.Text.Blank

namespace Sieve.BracketList

-- The blanks that may stand around an item.
def isGap (c : Char) : Bool :=
  c = ' ' || c = '\t' || c = '\r' || c = '\n'

def skipGap (cs : List Char) : List Char :=
  cs.dropWhile isGap

-- What a backslash and the character behind it stand for. A character without a meaning keeps
-- its backslash.
def unescape (c : Char) : List Char :=
  match c with
  | '"' | '\'' | '\\' => [c]
  | 'n' => ['\n']
  | 't' => ['\t']
  | _ => ['\\', c]

-- Reads up to the closing quote; there is nothing to read if it is missing.
def takeQuoted (quote : Char) : List Char → Option (List Char × List Char)
  | [] => none
  | '\\' :: c :: rest =>
    (takeQuoted quote rest).map fun (item, rest) => (unescape c ++ item, rest)
  | c :: rest =>
    if c = quote then some ([], rest)
    else if c = '\\' then none
    else (takeQuoted quote rest).map fun (item, rest) => (c :: item, rest)

def isItemEnd (c : Char) : Bool :=
  c = ',' || c = ']'

-- Reads up to the next comma or closing bracket; blanks at the ends do not count.
def takeBare (cs : List Char) : List Char × List Char :=
  (Text.trim (cs.takeWhile (!isItemEnd ·)), cs.dropWhile (!isItemEnd ·))

-- Reads an item and the gaps around it. An opening quote that is never closed is a character of
-- a bare item.
def takeItem (cs : List Char) : List Char × List Char :=
  let cs := skipGap cs
  let quoted :=
    match cs with
    | '"' :: rest => takeQuoted '"' rest
    | '\'' :: rest => takeQuoted '\'' rest
    | _ => none
  let (item, rest) := quoted.getD (takeBare cs)
  (item, skipGap rest)

-- Reads items up to the closing bracket, which has to end the text. Every round reads at least a
-- comma, so the length of the text bounds their number.
def takeItems : Nat → List Char → Option (List (List Char))
  | 0, _ => none
  | fuel + 1, cs =>
    match takeItem cs with
    | (item, ',' :: rest) => (takeItems fuel rest).map (item :: ·)
    | (item, [']']) => some [item]
    | _ => none

-- Reads a list of items in brackets. Blank brackets hold no item, rather than an empty one.
def read (cs : List Char) : Option (List (List Char)) :=
  match Text.trim cs with
  | '[' :: rest =>
    (takeItems (rest.length + 1) rest).map fun items => if items == [[]] then [] else items
  | _ => none

end Sieve.BracketList

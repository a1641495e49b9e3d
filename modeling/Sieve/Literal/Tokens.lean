import Sieve.Literal.BracketList
import Sieve.Locale
import Sieve.Rule.RawValue

namespace Sieve.Literal

-- The items of a text that stands for several values: a list in brackets, or else what lies
-- between commas. A bracket that does not belong to a list leaves the text whole.
def splitText (s : String) : List String :=
  let cs := Text.trim s.toList
  if cs.head? == some '[' then
    match BracketList.read cs with
    | some items => items.map String.ofList
    | none => [s]
  else if cs.contains ',' then
    (cs.splitOn ',').map fun item => String.ofList (Text.trim item)
  else [s]

mutual

-- The texts that a literal consists of, in order. Only a text that is the whole literal is ever
-- split. Numbers are written as the locale reads them.
def tokens (locale : Locale) (split : Bool) : RawValue → List String
  | .bool b => [if b then "true" else "false"]
  | .int n => [Decimal.renderInt n.toInt]
  | .float x => [locale.renderFloat x]
  | .text s => if split then splitText s else [s]
  | .list items => itemTokens locale items
  | .other (.string s) => [s]
  | .other json => [json.render]

def itemTokens (locale : Locale) : List RawValue → List String
  | [] => []
  | item :: rest => tokens locale false item ++ itemTokens locale rest

end

-- As `tokens`, for a literal that may be missing.
def canonicalize (raw : Option RawValue) (split : Bool) (locale : Locale) : List String :=
  match raw with
  | some raw => tokens locale split raw
  | none => []

end Sieve.Literal

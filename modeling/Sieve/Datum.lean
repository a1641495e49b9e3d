import Sieve.Text.Quoted
import Sieve.Value

namespace Sieve

-- What a record holds in a place: nothing, a scalar, a record with its members and the entries
-- behind its indexer, a list, or a mapping from keys.
inductive Datum where
  | null
  | scalar (v : Value)
  | record (members indexed : List (String × Datum))
  | list (items : List Datum)
  | map (entries : List (String × Datum))

namespace Datum

def isNull : Datum → Bool
  | null => true
  | _ => false

-- Where a stored datum stands relative to a literal, if they can be compared at all.
def compare? (stored : Datum) (literal : Value) : Option Ordering :=
  match stored with
  | scalar v => v.compare? literal
  | _ => none

def string? : Datum → Option String
  | scalar (.string s) => some s
  | _ => none

-- The text from which a scalar is read again as another kind.
def scalarText? : Datum → Option String
  | scalar v => some v.scalarText
  | _ => none

def inspectScalar : Value → String
  | .integer n => "Int(" ++ Decimal.renderInt n.toInt ++ ")"
  | .long n => "Long(" ++ Decimal.renderInt n.toInt ++ ")"
  | .double x => "Double(" ++ Decimal.renderFloat x ++ ")"
  | .string s => "Str(" ++ Text.quoted s ++ ")"
  | .date d => "Date(" ++ d.render ++ ")"
  | .datetime t => "DateTime(" ++ String.ofList (t.digits ' ') ++ ")"
  | .boolean b => "Bool(" ++ (if b then "true" else "false") ++ ")"
  | .guid g => "Guid(" ++ g.render ++ ")"

mutual

-- A description for messages. It names the kind of every scalar and leaves out what records and
-- mappings hold.
def inspect : Datum → String
  | null => "Null"
  | scalar v => inspectScalar v
  | record _ _ => "Record(..)"
  | list items => "List([" ++ inspectItems items ++ "])"
  | map _ => "Map(..)"

def inspectItems : List Datum → String
  | [] => ""
  | [item] => item.inspect
  | item :: rest => item.inspect ++ ", " ++ inspectItems rest

end

mutual

-- Lower-cases a text, and every text in a list.
def foldCase : Datum → Datum
  | scalar v => scalar v.foldCase
  | list items => list (foldItems items)
  | d => d

def foldItems : List Datum → List Datum
  | [] => []
  | item :: rest => item.foldCase :: foldItems rest

end

end Datum

end Sieve

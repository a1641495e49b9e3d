import Sieve.Document.Selector
import Sieve.Json.Printer

namespace Sieve.Document

-- Dates are timestamps at midnight, and timestamps have thousandths of a second.
def dateText (d : Date) : String :=
  d.render ++ "T00:00:00Z"

def dateTimeText (t : DateTime) : String :=
  String.ofList
    (t.date.digits ++ ['T'] ++ t.clockDigits ++ ['.'] ++
      Decimal.paddedDigits 3 (t.nano % 1000000000 / 1000000) ++ ['Z'])

-- A literal as it stands in a document.
def valueJson : Value → Json
  | .integer n => .number (.integer n.toInt)
  | .long n => .number (.integer n.toInt)
  | .double x => if x.isFinite then .number (.double x) else .null
  | .string s => .string s
  | .date d => .object [("$date", .string (dateText d))]
  | .datetime t => .object [("$date", .string (dateTimeText t))]
  | .boolean b => .bool b
  | .guid g => .object [("$uuid", .string g.render)]

namespace Regex

def metacharacters : List Char :=
  ['\\', '^', '$', '.', '|', '?', '*', '+', '(', ')', '[', ']', '\x7b', '\x7d']

def escape (cs : List Char) : List Char :=
  cs.flatMap fun c => if metacharacters.contains c then ['\\', c] else [c]

def pattern (r : Regex) : String :=
  String.ofList
    ((if r.atStart then ['^'] else []) ++ escape r.literal.toList ++
      (if r.atEnd then ['$'] else []))

def toJson (r : Regex) : Json :=
  if r.ignoreCase then .object [("$options", .string "i"), ("$regex", .string r.pattern)]
  else .object [("$regex", .string r.pattern)]

end Regex

def Operand.toJson : Operand → Json
  | null => .null
  | value v => valueJson v
  | regex r => r.toJson

def comparisonKey : Comparison → String
  | .equal => "$eq"
  | .notEqual => "$ne"
  | .greater => "$gt"
  | .greaterOrEqual => "$gte"
  | .less => "$lt"
  | .lessOrEqual => "$lte"

namespace Selector

mutual

def toJson : Selector → Json
  | everything => .object []
  | nothing => .object [("$expr", .bool false)]
  | all parts => .object [("$and", .array (toJsonParts parts))]
  | any parts => .object [("$or", .array (toJsonParts parts))]
  | noneOf part => .object [("$nor", .array [part.toJson])]
  | inField name test => .object [(name, test.toJson)]
  | missing => .null
  | not test => .object [("$not", test.toJson)]
  | compares tests => .object (tests.map fun (op, operand) => (comparisonKey op, operand.toJson))
  | oneOf operands => .object [("$in", .array (operands.map Operand.toJson))]
  | regex r => r.toJson
  | size n => .object [("$size", .number (.integer n))]
  | elementMatch test => .object [("$elemMatch", test.toJson)]

def toJsonParts : List Selector → List Json
  | [] => []
  | part :: rest => part.toJson :: toJsonParts rest

end

end Selector

end Sieve.Document

import Sieve.Text.Blank

namespace Sieve

-- What sort of value a field holds or a rule declares.
inductive Kind where
  | integer
  | long
  | double
  | string
  | date
  | datetime
  | boolean
  | guid
  deriving DecidableEq

namespace Kind

def all : List Kind :=
  [integer, long, double, string, date, datetime, boolean, guid]

def name : Kind → String
  | integer => "integer"
  | long => "long"
  | double => "double"
  | string => "string"
  | date => "date"
  | datetime => "datetime"
  | boolean => "boolean"
  | guid => "guid"

-- The kind with exactly this name.
def ofName? (s : String) : Option Kind :=
  all.find? (·.name == s)

-- As `ofName?`, with blanks around the name and any case of its letters.
def read (s : String) : Option Kind :=
  all.find? fun kind => Text.sameUpToAsciiCase kind.name (Text.trimmed s)

def isNumeric (kind : Kind) : Bool :=
  kind == integer || kind == long || kind == double

-- Whether a rule of this kind may test a field of the other. Numbers are compared across their
-- kinds, and a timestamp may be asked for its day.
def accepts (declared stored : Kind) : Bool :=
  declared == stored || (declared.isNumeric && stored.isNumeric) ||
    (declared == date && stored == datetime)

end Kind

end Sieve

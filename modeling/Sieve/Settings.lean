import Sieve.Json.Fields
import Sieve.Json.Printer
import Sieve.Json.Reader
import Sieve.Locale

namespace Sieve

-- How rules are read: the culture of literals, whether timestamps with an offset are taken to
-- UTC, whether texts are compared exactly, and whether path segments may go through an indexer
-- of a given name.
structure Settings where
  locale : Locale := .invariant
  datesAsUtc : Bool := false
  caseSensitive : Bool := false
  useIndexer : Bool := false
  indexerName : String := "Item"
  deriving DecidableEq

namespace Settings

def fieldNames : List String :=
  ["locale", "parse_dates_as_utc", "string_case_sensitive", "use_indexed_property",
    "indexed_property_name"]

def toJson (s : Settings) : Json :=
  .object [
    ("locale", .string s.locale.tag),
    ("parse_dates_as_utc", .bool s.datesAsUtc),
    ("string_case_sensitive", .bool s.caseSensitive),
    ("use_indexed_property", .bool s.useIndexer),
    ("indexed_property_name", .string s.indexerName)
  ]

-- Reads a locale, a flag or a name, where nothing is said about it the given one.
def localeOr (held : Locale) : Option Json.Source → Option Locale
  | none => some held
  | some (.string (some tag)) => (Locale.parse tag).toOption
  | some _ => none

def flagOr (held : Bool) : Option Json.Source → Option Bool
  | none => some held
  | some (.bool b) => some b
  | some _ => none

def nameOr (held : String) : Option Json.Source → Option String
  | none => some held
  | some (.string name) => name
  | some _ => none

def ofSource? (source : Json.Source) : Option Settings := do
  let fields ← source.fields? fieldNames
  let held : Settings := {}
  let locale ← localeOr held.locale (fields.lookup 0)
  let datesAsUtc ← flagOr held.datesAsUtc (fields.lookup 1)
  let caseSensitive ← flagOr held.caseSensitive (fields.lookup 2)
  let useIndexer ← flagOr held.useIndexer (fields.lookup 3)
  let indexerName ← nameOr held.indexerName (fields.lookup 4)
  return { locale, datesAsUtc, caseSensitive, useIndexer, indexerName }

def ofJson? (json : Json) : Option Settings :=
  ofSource? json.source

def read (text : String) : Option Settings :=
  (Json.Source.read text).bind ofSource?

end Settings

end Sieve

import Sieve.Decimal.Layout
import Sieve.Error
import Sieve.Text.Blank

namespace Sieve

-- Order of day, month and year in short numeric dates.
inductive DateOrder where
  | dayMonthYear
  | monthDayYear
  | yearMonthDay
  deriving DecidableEq

-- A culture whose way of writing numbers and dates is known.
inductive Locale where
  | invariant
  | enUS
  | enGB
  | esES
  | frFR
  | deDE
  | itIT
  | ptBR
  | nlNL
  | ruRU
  | jaJP
  | zhCN
  deriving DecidableEq

namespace Locale

-- The locales that are chosen by a tag. A bare language means the first one listed.
def tagged : List Locale :=
  [enUS, enGB, esES, frFR, deDE, itIT, ptBR, nlNL, ruRU, jaJP, zhCN]

def tag : Locale → String
  | invariant => ""
  | enUS => "en-US"
  | enGB => "en-GB"
  | esES => "es-ES"
  | frFR => "fr-FR"
  | deDE => "de-DE"
  | itIT => "it-IT"
  | ptBR => "pt-BR"
  | nlNL => "nl-NL"
  | ruRU => "ru-RU"
  | jaJP => "ja-JP"
  | zhCN => "zh-CN"

def decimal : Locale → Char
  | invariant | enUS | enGB | jaJP | zhCN => '.'
  | esES | frFR | deDE | itIT | ptBR | nlNL | ruRU => ','

def group : Locale → Char
  | invariant | enUS | enGB | jaJP | zhCN => ','
  | esES | deDE | itIT | ptBR | nlNL => '.'
  | frFR | ruRU => ' '

def dateOrder : Locale → DateOrder
  | invariant | enUS => .monthDayYear
  | enGB | esES | frFR | deDE | itIT | ptBR | nlNL | ruRU => .dayMonthYear
  | jaJP | zhCN => .yearMonthDay

def render (locale : Locale) : String :=
  if locale.tag.isEmpty then "invariant" else locale.tag

-- The part of a tag before its first dash.
def language (tag : String) : String :=
  String.ofList (tag.toList.takeWhile (· != '-'))

-- Finds a locale by its tag, or by its language alone. Case does not matter, blanks around the
-- tag neither, and an underscore is as good as a dash.
def parse (tag : String) : Except ConfigurationError Locale :=
  let wanted := String.ofList
    ((Text.trim tag.toList).map fun c => if c = '_' then '-' else c)
  if wanted.isEmpty || Text.sameUpToAsciiCase wanted "invariant" then .ok invariant
  else
    let byTag := tagged.find? fun locale => Text.sameUpToAsciiCase locale.tag wanted
    let byLanguage :=
      tagged.find? fun locale => Text.sameUpToAsciiCase (language locale.tag) wanted
    match byTag <|> byLanguage with
    | some locale => .ok locale
    | none => .error (.unknownLocale tag)

-- Besides the locale's own group separator, both no-break spaces separate groups everywhere.
def isGroup (locale : Locale) (c : Char) : Bool :=
  c == locale.group || c == '\u00a0' || c == '\u202f'

-- The part before the first decimal separator, and the part behind it if there is one.
def splitDecimal (locale : Locale) (cs : List Char) : List Char × Option (List Char) :=
  match cs.dropWhile (· != locale.decimal) with
  | [] => (cs, none)
  | _ :: fraction => (cs.takeWhile (· != locale.decimal), some fraction)

-- The leading group, signs aside, when other groups follow it.
def isLeadGroup (lead : List Char) : Bool :=
  let digits := lead.dropWhile fun c => c == '+' || c == '-'
  1 ≤ digits.length && digits.length ≤ 3 && digits.all Decimal.isDigit

def isFullGroup (group : List Char) : Bool :=
  group.length == 3 && group.all Decimal.isDigit

-- The digits before the decimal separator without the separators between their groups.
def joinGroups (locale : Locale) (integral : List Char) : Option (List Char) :=
  match integral.splitOnP locale.isGroup with
  | [] => some []
  | [lead] => some lead
  | lead :: groups =>
    if isLeadGroup lead && groups.all isFullGroup then some (lead ++ groups.flatten) else none

-- The plain form of a number written in the locale: no group separators, a point before the
-- fraction. There is none if a group separator stands anywhere but between groups of three.
def normalizeNumber (locale : Locale) (cs : List Char) : Option (List Char) := do
  let (integral, fraction) := locale.splitDecimal (Text.trim cs)
  let joined ← locale.joinGroups integral
  match fraction with
  | none => return joined
  | some fraction =>
    if fraction.any locale.isGroup then none else return joined ++ '.' :: fraction

-- The text of a double with the locale's decimal separator.
def renderFloat (locale : Locale) (x : Float) : String :=
  String.ofList
    ((Decimal.renderFloat x).toList.map fun c => if c = '.' then locale.decimal else c)

end Locale

end Sieve

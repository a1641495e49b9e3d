import Sieve.Document.Selector

namespace Sieve.Document

-- The dotted name under which a field is stored; `part` is what asks for it.
def fieldName (part : Condition) : FieldPath → Except TranslationError (List String)
  | [] => .ok []
  | .member name :: rest => (fieldName part rest).map (name :: ·)
  | .key name :: rest => (fieldName part rest).map (name :: ·)
  | .index _ _ :: _ => .error (.of .document .indexer part)

def dottedName (part : Condition) (path : FieldPath) : Except TranslationError String :=
  (fieldName part path).map (".".intercalate ·)

namespace Regex

-- Equality up to case, with the text of a literal that is no string.
def exactly (value : Value) : Regex :=
  let literal :=
    match value with
    | .string s => s
    | value => value.render
  { atStart := true, literal, atEnd := true, ignoreCase := true }

def ofTest (test : TextTest) (pattern : String) (ignoreCase : Bool) : Regex where
  atStart := test == .beginsWith
  literal := pattern
  atEnd := test == .endsWith
  ignoreCase := ignoreCase

end Regex

namespace Selector

def atLeast (d : Date) : Comparison × Operand := (.greaterOrEqual, .value (.date d))

def before (d : Date) : Comparison × Operand := (.less, .value (.date d))

-- The timestamps whose day stands so relative to a given one. A day reaches to the midnight of
-- the next one; after the last day of all there is no timestamp.
def ofDay (op : Comparison) (day : Date) : Selector :=
  match day.next?, op with
  | some next, .equal => compares [atLeast day, before next]
  | some next, .notEqual => not (compares [atLeast day, before next])
  | some next, .greater => compares [atLeast next]
  | some _, .greaterOrEqual => compares [atLeast day]
  | some _, .less => compares [before day]
  | some next, .lessOrEqual => compares [before next]
  | none, .equal => compares [atLeast day]
  | none, .notEqual => compares [before day]
  | none, .greater => oneOf []
  | none, .greaterOrEqual => compares [atLeast day]
  | none, .less => compares [before day]
  | none, .lessOrEqual => compares [(.notEqual, .null)]

-- The timestamps from a literal on to the end of a day.
def ofDays (low : Value) (high : Date) : Selector :=
  match high.next? with
  | some next => compares [(.greaterOrEqual, .value low), before next]
  | none => compares [(.greaterOrEqual, .value low)]

-- Puts a test on a field; one on the current element stands alone.
def onField (part : Condition) (field : FieldRef) (test : Selector) :
    Except TranslationError Selector :=
  if field.path.isElement then .ok test
  else (dottedName part field.path).map fun name => .inField name test

def ofCompare (part : Condition) (field : FieldRef) (op : Comparison) (value : Value) :
    Except TranslationError Selector :=
  match field.dayOnly, value with
  | true, .date day => onField part field (ofDay op day)
  | _, _ =>
    if field.fold then
      match op with
      | .equal => onField part field (.regex (.exactly value))
      | .notEqual => onField part field (.not (.regex (.exactly value)))
      | _ => .error (.of .document .foldedOrder part)
    else onField part field (compares [(op, .value value)])

-- The days among some literals, if there is nothing else among them.
def days? : List Value → Option (List Date)
  | [] => some []
  | .date day :: rest => (days? rest).map (day :: ·)
  | _ :: _ => none

def ofMembership (part : Condition) (field : FieldRef) (values : List Value) :
    Except TranslationError Selector :=
  match field.dayOnly, days? values with
  | true, some [] => onField part field (.oneOf [])
  | true, some days =>
    if field.path.isElement then .error (.of .document .elementDay part)
    else
      (dottedName part field.path).map fun name =>
        .any (days.map fun day => .inField name (ofDay .equal day))
  | _, _ =>
    if field.fold then onField part field (.oneOf (values.map fun v => .regex (.exactly v)))
    else onField part field (.oneOf (values.map .value))

def ofRange (part : Condition) (field : FieldRef) (low high : Value) :
    Except TranslationError Selector :=
  if field.fold then .error (.of .document .foldedRange part)
  else
    match field.dayOnly, high with
    | true, .date day => onField part field (ofDays low day)
    | _, _ =>
      onField part field (compares [(.greaterOrEqual, .value low), (.lessOrEqual, .value high)])

mutual

-- Whether a condition reads the current element itself rather than fields of it.
def readsElement : Condition → Bool
  | .constant _ => false
  | .all parts => readsElementAny parts
  | .any parts => readsElementAny parts
  | .not inner => readsElement inner
  | .compare field _ _ => field.path.isElement
  | .oneOf field _ => field.path.isElement
  | .between field _ _ => field.path.isElement
  | .text field _ _ => field.path.isElement
  | .isNull field => field.path.isElement
  | .isEmpty field _ => field.path.isElement
  | .anyElement collection _ => collection.path.isElement
  | .custom field _ _ => field.path.isElement

def readsElementAny : List Condition → Bool
  | [] => false
  | part :: rest => readsElement part || readsElementAny rest

end

mutual

-- Translates a condition. A condition on an element, unlike one on fields, has to be a single
-- test, perhaps negated.
def ofCondition (onElement : Bool) : Condition → Except TranslationError Selector
  | .constant b =>
    if onElement then .error (.of .document .constantElement (.constant b))
    else .ok (if b then everything else nothing)
  | .all parts =>
    if onElement then .error (.of .document .compoundElement (.all parts))
    else (ofParts parts).map all
  | .any parts =>
    if onElement then .error (.of .document .compoundElement (.any parts))
    else (ofParts parts).map any
  | .not inner => (ofCondition onElement inner).map (if onElement then not else noneOf)
  | .compare field op value => ofCompare (.compare field op value) field op value
  | .oneOf field values => ofMembership (.oneOf field values) field values
  | .between field low high => ofRange (.between field low high) field low high
  | .text field test pattern =>
    onField (.text field test pattern) field (.regex (.ofTest test pattern field.fold))
  | .isNull field => onField (.isNull field) field (compares [(.equal, .null)])
  | .isEmpty field .text =>
    onField (.isEmpty field .text) field (.oneOf [.null, .value (.string "")])
  | .isEmpty field .collection =>
    if field.path.isElement then
      .error (.of .document .nestedLength (.isEmpty field .collection))
    else
      (dottedName (.isEmpty field .collection) field.path).map fun name =>
        any [.inField name missing, .inField name (size 0)]
  | .anyElement collection inner =>
    if collection.path.isElement then
      .error (.of .document .nestedQuantifier (.anyElement collection inner))
    else
      match ofCondition (readsElement inner) inner with
      | .ok test => onField (.anyElement collection inner) collection (elementMatch test)
      | .error e => .error e
  | .custom field name test => .error (.of .document .customTest (.custom field name test))

def ofParts : List Condition → Except TranslationError (List Selector)
  | [] => .ok []
  | part :: rest => do
    let selector ← ofCondition false part
    let selectors ← ofParts rest
    return selector :: selectors

end

end Selector

end Sieve.Document

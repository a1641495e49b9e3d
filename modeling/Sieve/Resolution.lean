import Sieve.Error
import Sieve.Field
import Sieve.Schema
import Sieve.Settings

namespace Sieve

-- Where a path leads on a schema. There is one hop for every list that the path goes into, each
-- relative to an element of the one before; `path` is relative to an element of the last. The
-- last two fields say what type the place has and whether it may read as null.
structure Resolution where
  hops : List FieldPath
  path : FieldPath
  type : FieldType
  nullable : Bool
  deriving DecidableEq

namespace Resolution

-- How a condition reads the place, as values of a declared kind.
def fieldRef (r : Resolution) (declared : Kind) (fold : Bool) : FieldRef :=
  let holdsTimestamps :=
    match r.type.element with
    | .scalar kind _ => kind == .datetime
    | _ => false
  let field : FieldRef := { path := r.path, kind := declared }
  ((field.coerced (r.type.element == .dynamic)).folded fold).truncated holdsTimestamps

def hopRefs (r : Resolution) (declared : Kind) : List FieldRef :=
  r.hops.map fun path => { path := path, kind := declared }

-- Stored scalars have to be of a kind that the declared one accepts.
def checkKind (r : Resolution) (field : String) (declared : Kind) :
    Except ConfigurationError Unit :=
  match r.type.element with
  | .scalar kind _ =>
    if declared.accepts kind then .ok () else .error (.typeMismatch field declared kind)
  | _ => .ok ()

-- A walk that is under way: what has been passed, the type of the place that is reached, and
-- whether that place itself, or one before it, may be missing.
structure Walk where
  hops : List FieldPath
  steps : FieldPath
  type : FieldType
  missing : Bool
  passedMissing : Bool

namespace Walk

def start (root : Nat) : Walk where
  hops := []
  steps := []
  type := .object root
  missing := false
  passedMissing := false

def take (w : Walk) (step : Step) (type : FieldType) (missing : Bool) : Walk where
  hops := w.hops
  steps := w.steps ++ [step]
  type := type
  missing := missing
  passedMissing := w.passedMissing || w.missing

-- Goes on from the elements of a list of this type, and of the lists in it.
def enter (w : Walk) : FieldType → Walk
  | .list inner =>
    enter {
      hops := w.hops ++ [w.steps]
      steps := []
      type := inner
      missing := false
      passedMissing := w.passedMissing || w.missing } inner
  | _ => w

def finish (w : Walk) : Resolution where
  hops := w.hops
  path := w.steps
  type := w.type
  nullable := w.passedMissing || w.missing

end Walk

-- The indexer through which a segment that names no member may go.
def indexer? (settings : Settings) (field segment : String) (schema : Schema) :
    Except RuleError (String × FieldType) :=
  let notFound : ResolutionError := { field, segment, schema := schema.name }
  match schema.indexer with
  | none => .error (.resolution notFound)
  | some (name, type) =>
    if !settings.useIndexer then .error (.configuration (.indexerDisabled field segment))
    else if name != settings.indexerName then .error (.resolution notFound)
    else .ok (name, type)

-- One segment further, from an element where a list is reached. A segment names a member of a
-- record or a key of a mapping. One that names no member is a key for the indexer, unless it is
-- the name of the indexer and the key is next; then true says that the next one is used up.
def advance (catalog : Catalog) (settings : Settings) (field segment : String)
    (next : Option String) (w : Walk) : Except RuleError (Walk × Bool) :=
  let w := w.enter w.type
  match w.type with
  | .object schema =>
    match (catalog.schema schema).field? segment with
    | some type => .ok (w.take (.member segment) type type.isNullable, false)
    | none => do
      let (name, type) ← indexer? settings field segment (catalog.schema schema)
      match next with
      | some key =>
        if segment == name then return (w.take (.index name key) type true, true)
        else return (w.take (.index name segment) type true, false)
      | none => return (w.take (.index name segment) type true, false)
  | .map type => .ok (w.take (.key segment) type true, false)
  | _ => .error (.configuration (.notTraversable field segment))

-- Walks along the segments, past the first one if it is used up already.
def walk (catalog : Catalog) (settings : Settings) (field : String) :
    List String → Bool → Walk → Except RuleError Walk
  | [], _, w => .ok w
  | _ :: rest, true, w => walk catalog settings field rest false w
  | segment :: rest, false, w =>
    match advance catalog settings field segment rest.head? w with
    | .ok (w, used) => walk catalog settings field rest used w
    | .error e => .error e

-- The segments of a path text, blanks around them aside.
def segments (field : String) : List String :=
  (field.toList.splitOn '.').map fun segment => String.ofList (Text.trim segment)

def resolve (record : RecordType) (settings : Settings) (field : String) :
    Except RuleError Resolution :=
  (walk record.catalog settings field (segments field) false (.start record.root)).map Walk.finish

end Resolution

end Sieve

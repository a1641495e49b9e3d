import Sieve.Evaluation
import Sieve.Plan.Binding

namespace Sieve

-- A condition that is ready to be put to records.
structure Filter where
  condition : Condition
  coercer : Coercer

-- Items that are being looked through: what is left of them, and whether one could not be
-- evaluated. After that no more are taken.
structure Selection (α : Type) where
  rest : List α
  failed : Bool := false

namespace Selection

variable {m : Type → Type} [Monad m] {ε α : Type}

-- Takes items up to the first that passes. One that cannot be evaluated comes out as its error.
def search (evaluate : α → m (Except ε Bool)) : List α → m (Option (Except ε α) × Selection α)
  | [] => return (none, { rest := [] })
  | item :: rest => do
    match ← evaluate item with
    | .ok true => return (some (.ok item), { rest })
    | .ok false => search evaluate rest
    | .error e => return (some (.error e), { rest, failed := true })

def next (evaluate : α → m (Except ε Bool)) (selection : Selection α) :
    m (Option (Except ε α) × Selection α) :=
  if selection.failed then return (none, selection) else search evaluate selection.rest

end Selection

namespace Filter

variable {α : Type}

-- The filter that a rule tree stands for.
def build (record : RecordType) (options : Options) (rule : Option Rule) :
    Except RuleError Filter :=
  (compile record options rule).map fun condition => ⟨condition, options.coercer⟩

def evaluate (filter : Filter) (record : Datum) : Except CoercionError Bool :=
  filter.condition.eval filter.coercer record

def matchesAll (filter : Filter) : Bool :=
  match filter.condition with
  | .constant b => b
  | _ => false

def text (filter : Filter) : String :=
  filter.condition.render

-- Gives the next of some items, each of which holds a record, that passes.
def next (filter : Filter) (record : α → Datum) (selection : Selection α) :
    Option (Except CoercionError α) × Selection α :=
  Id.run (selection.next fun item => pure (filter.evaluate (record item)))

-- The outcomes of at most `count` calls of `next`, up to the one that gives nothing.
def take (filter : Filter) (record : α → Datum) :
    Nat → Selection α → List (Except CoercionError α)
  | 0, _ => []
  | count + 1, selection =>
    match filter.next record selection with
    | (some outcome, selection) => outcome :: filter.take record count selection
    | (none, _) => []

-- Everything that `next` gives until there is no more.
def select (filter : Filter) (record : α → Datum) (items : List α) :
    List (Except CoercionError α) :=
  filter.take record items.length { rest := items }

end Filter

end Sieve

import Sieve.Document.Conversion
import Sieve.Document.Rendering

namespace Sieve.Document

-- The name of a collection, and what its documents are selected by.
structure Query where
  collection : String
  selector : Selector

namespace Query

def new (collection : String) : Query where
  collection := collection
  selector := .everything

-- Asks for a further condition. A selector that lets everything pass is never kept beside
-- another one. A condition without a form in documents leaves no query.
def andWhere (query : Query) (condition : Condition) : Except TranslationError Query :=
  (Selector.ofCondition false condition).map fun selector =>
    match selector.isEverything, query.selector.isEverything with
    | true, _ => query
    | false, true => { query with selector := selector }
    | false, false => { query with selector := .all [query.selector, selector] }

end Query

end Sieve.Document

import Sieve.Proofs.Sql.Columns
import Sieve.Proofs.Sql.Leaves
import Sieve.Proofs.Sql.Reading

-- What the text of a condition owes to its literals and to the names of its fields.
namespace Sieve

-- The members that a test is written with. The text of a test for emptiness has its field twice.
def Condition.written (test : Condition) : List String :=
  let names := test.field?.toList.flatMap fun field => field.path.filterMap Step.memberName?
  match test with
  | isEmpty _ .text => names ++ names
  | _ => names

-- The members whose names a condition reads, from left to right.
def Condition.names (condition : Condition) : List String :=
  condition.tests.flatMap written

namespace Sql

-- What is written of a piece whatever its value.
def Piece.text? : Piece → Option String
  | text s => some s
  | bound _ => none

theorem Piece.render_eq_of_text? {d : Dialect} {pieces others : List Piece}
    (h : pieces.map text? = others.map text?) (place : Nat) :
    render d place pieces = render d place others ∧
      (params pieces).length = (params others).length := by
  induction pieces generalizing others place with
  | nil =>
      obtain rfl := List.map_eq_nil_iff.mp h.symm
      exact ⟨rfl, rfl⟩
  | cons piece rest ih =>
      obtain ⟨other, others, rfl, hpiece, hrest⟩ := List.map_eq_cons_iff.mp h.symm
      cases piece with
      | text s =>
          cases other with
          | text t =>
              obtain rfl : t = s := Option.some.inj hpiece
              obtain ⟨hrender, hlength⟩ := ih hrest.symm place
              exact ⟨congrArg (t ++ ·) hrender, hlength⟩
          | bound value => cases hpiece
      | bound value =>
          cases other with
          | text t => cases hpiece
          | bound other =>
              obtain ⟨hrender, hlength⟩ := ih hrest.symm (place + 1)
              exact ⟨congrArg (d.placeholder place ++ ·) hrender, congrArg (· + 1) hlength⟩

namespace Clause

theorem text?_boundList (onValue : Value → Value) (values : List Value) :
    (boundList (values.map onValue)).map Piece.text? = (boundList values).map Piece.text? := by
  induction values with
  | nil => rfl
  | cons value rest ih =>
      cases rest with
      | nil => rfl
      | cons next rest => exact congrArg (fun texts => none :: some ", " :: texts) ih

variable {d : Dialect}

mutual

-- Values do not come into the text.
theorem text?_mapLeaves (onValue : Value → Value) (onPattern : String → String) (clause : Clause) :
    ((clause.mapLeaves id onValue onPattern).pieces d).map Piece.text? =
      (clause.pieces d).map Piece.text? := by
  match clause with
  | joined combinator clauses =>
      simp [mapLeaves, pieces, text?_mapParts onValue onPattern]
  | not inner => simp [mapLeaves, pieces, text?_mapLeaves onValue onPattern inner]
  | oneOf column values => simp [mapLeaves, pieces, text?_boundList]
  | truth b | compare column op value | between column low high | like column pattern
    | isNull column | isBlank column => rfl

theorem text?_mapParts (onValue : Value → Value) (onPattern : String → String)
    (separator : String) (clauses : List Clause) :
    (piecesJoined d separator (mapParts id onValue onPattern clauses)).map Piece.text? =
      (piecesJoined d separator clauses).map Piece.text? := by
  match clauses with
  | [] => rfl
  | [clause] => exact text?_mapLeaves onValue onPattern clause
  | clause :: next :: rest =>
      have hrest := text?_mapParts onValue onPattern separator (next :: rest)
      simp [mapParts, piecesJoined, text?_mapLeaves onValue onPattern clause] at hrest ⊢
      exact hrest

end

end Clause

namespace Token

def identifier? : Token → Option String
  | identifier name => some name
  | _ => none

-- The same token with one name for all identifiers.
def withoutName : Token → Token
  | identifier _ => identifier ""
  | token => token

end Token

namespace Symbol

def identifier? : Symbol → Option String
  | token t => t.identifier?
  | bound _ => none

def withoutName : Symbol → Symbol
  | token t => token t.withoutName
  | bound value => bound value

theorem identifiers_tokens (d : Dialect) (place : Nat) (symbols : List Symbol) :
    (tokens d place symbols).filterMap Token.identifier? = symbols.filterMap identifier? := by
  induction symbols generalizing place with
  | nil => rfl
  | cons symbol rest ih =>
      cases symbol with
      | token t => rw [tokens, List.filterMap_cons, ih, List.filterMap_cons, identifier?]
      | bound value => exact ih (place + 1)

theorem withoutName_tokens (d : Dialect) (place : Nat) (symbols : List Symbol) :
    (tokens d place symbols).map Token.withoutName = tokens d place (symbols.map withoutName) := by
  induction symbols generalizing place with
  | nil => rfl
  | cons symbol rest ih =>
      cases symbol with
      | token t => exact congrArg (t.withoutName :: ·) (ih place)
      | bound value => exact congrArg (d.placeholderToken place :: ·) (ih (place + 1))

@[simp]
theorem identifiers_said (tokens : List Token) :
    (said tokens).filterMap identifier? = tokens.filterMap Token.identifier? := by
  rw [said, List.filterMap_map]
  rfl

@[simp]
theorem withoutName_said (tokens : List Token) :
    (said tokens).map withoutName = said (tokens.map Token.withoutName) := by
  rw [said, said, List.map_map, List.map_map]
  rfl

@[simp]
theorem identifiers_parenthesised (symbols : List Symbol) :
    (parenthesised symbols).filterMap identifier? = symbols.filterMap identifier? := by
  simp [parenthesised, List.filterMap_cons, identifier?, Token.identifier?]

@[simp]
theorem withoutName_parenthesised (symbols : List Symbol) :
    (parenthesised symbols).map withoutName = parenthesised (symbols.map withoutName) := by
  simp [parenthesised, withoutName, Token.withoutName]

end Symbol

theorem identifiers_dotted (names : List String) :
    (dotted names).filterMap Token.identifier? = names := by
  induction names with
  | nil => rfl
  | cons name rest ih =>
      cases rest with
      | nil => rfl
      | cons next rest => exact congrArg (name :: ·) ih

theorem withoutName_dotted (names : List String) :
    (dotted names).map Token.withoutName = dotted (names.map fun _ => "") := by
  induction names with
  | nil => rfl
  | cons name rest ih =>
      cases rest with
      | nil => rfl
      | cons next rest => exact congrArg (fun tokens => .identifier "" :: .sign '.' :: tokens) ih

namespace Column

@[simp]
theorem identifiers_tokens (d : Dialect) (column : Column) :
    (column.tokens d).filterMap Token.identifier? = column.names := by
  obtain ⟨names, view⟩ := column
  cases view with
  | plain => exact identifiers_dotted names
  | lower => simp [tokens, List.filterMap_cons, identifiers_dotted, Token.identifier?]
  | day => cases d <;> simp [tokens, List.filterMap_cons, identifiers_dotted, Token.identifier?]

@[simp]
theorem withoutName_tokens (d : Dialect) (column : Column) :
    (column.tokens d).map Token.withoutName = column.withoutNames.tokens d := by
  obtain ⟨names, view⟩ := column
  cases view with
  | plain => exact withoutName_dotted names
  | lower => simp [tokens, withoutNames, withoutName_dotted, Token.withoutName]
  | day => cases d <;> simp [tokens, withoutNames, withoutName_dotted, Token.withoutName]

end Column

@[simp]
theorem identifiers_comparison (op : Comparison) :
    (comparisonTokens op).filterMap Token.identifier? = [] := by
  cases op <;> decide

@[simp]
theorem withoutName_comparison (op : Comparison) :
    (comparisonTokens op).map Token.withoutName = comparisonTokens op := by
  cases op <;> decide

namespace Clause

@[simp]
theorem identifiers_listed (values : List Value) :
    (listed values).filterMap Symbol.identifier? = [] := by
  induction values with
  | nil => rfl
  | cons value rest ih =>
      cases rest with
      | nil => rfl
      | cons next rest => exact ih

@[simp]
theorem withoutName_listed (values : List Value) :
    (listed values).map Symbol.withoutName = listed values := by
  induction values with
  | nil => rfl
  | cons value rest ih =>
      cases rest with
      | nil => rfl
      | cons next rest =>
          exact congrArg (fun symbols => .bound value :: .token (.sign ',') :: symbols) ih

mutual

-- Names come into a clause as identifiers alone.
theorem withoutName_symbols (clause : Clause) :
    (clause.symbols d).map Symbol.withoutName =
      (clause.mapLeaves Column.withoutNames id id).symbols d := by
  match clause with
  | joined combinator clauses =>
      simp [symbols, mapLeaves, withoutName_symbolsJoined combinator.symbol clauses]
  | not inner =>
      simp [symbols, mapLeaves, inner.withoutName_symbols, Symbol.withoutName, Token.withoutName]
  | truth b | compare column op value | oneOf column values | between column low high
    | like column pattern | isNull column | isBlank column =>
      simp [symbols, mapLeaves, Symbol.withoutName, Token.withoutName]

theorem withoutName_symbolsJoined (separator : String) (clauses : List Clause) :
    (symbolsJoined d (.word separator) clauses).map Symbol.withoutName =
      symbolsJoined d (.word separator) (mapParts Column.withoutNames id id clauses) := by
  match clauses with
  | [] => rfl
  | [clause] => exact clause.withoutName_symbols
  | clause :: next :: rest =>
      have hrest := withoutName_symbolsJoined (d := d) separator (next :: rest)
      simp [symbolsJoined, mapParts, clause.withoutName_symbols, Symbol.withoutName,
        Token.withoutName] at hrest ⊢
      exact hrest

end

end Clause

theorem Column.filterMap_memberName? {field : FieldRef} {part : Condition} {column : Column}
    (h : ofField field part = .ok column) :
    field.path.filterMap Step.memberName? = column.names := by
  rw [(eq_of_ofField h).1, List.filterMap_map]
  exact List.filterMap_some

namespace Clause

mutual

-- The identifiers of a clause are the names that its condition reads.
theorem identifiers_symbols (condition : Condition) {clause : Clause}
    (h : ofCondition condition = .ok clause) :
    (clause.symbols d).filterMap Symbol.identifier? = condition.names := by
  match condition with
  | .constant b | .all [] | .any [] =>
      cases h
      simp [symbols, List.filterMap_cons, Symbol.identifier?, Token.identifier?, Condition.names,
        Condition.tests, Condition.testsOf]
  | .all (part :: rest) =>
      obtain ⟨clauses, hclauses, rfl⟩ := Outcome.map_eq_ok.mp h
      rw [symbols, Symbol.identifiers_parenthesised]
      exact identifiers_symbolsJoined _ (part :: rest) hclauses
  | .any (part :: rest) =>
      obtain ⟨clauses, hclauses, rfl⟩ := Outcome.map_eq_ok.mp h
      rw [symbols, Symbol.identifiers_parenthesised]
      exact identifiers_symbolsJoined _ (part :: rest) hclauses
  | .not inner =>
      obtain ⟨clause, hclause, rfl⟩ := Outcome.map_eq_ok.mp h
      have hinner := identifiers_symbols (d := d) inner hclause
      simpa [symbols, List.filterMap_cons, Symbol.identifier?, Token.identifier?, Condition.names,
        Condition.tests] using hinner
  | .compare field op value | .oneOf field values | .between field low high
    | .text field test pattern | .isNull field | .isEmpty field .text =>
      obtain ⟨column, hcolumn, rfl⟩ := Outcome.map_eq_ok.mp h
      simp [symbols, List.filterMap_cons, Symbol.identifier?, Token.identifier?, Condition.names,
        Condition.tests, Condition.written, Condition.field?, Column.filterMap_memberName? hcolumn]
  | .isEmpty field .collection => cases h
  | .anyElement collection inner => cases h
  | .custom field name test => cases h

theorem identifiers_symbolsJoined (separator : String) (parts : List Condition)
    {clauses : List Clause} (h : ofParts parts = .ok clauses) :
    (symbolsJoined d (.word separator) clauses).filterMap Symbol.identifier? =
      (Condition.testsOf parts).flatMap Condition.written := by
  match parts with
  | [] =>
      cases h
      rfl
  | part :: rest =>
      obtain ⟨clause, others, hclause, hothers, rfl⟩ := (Outcome.bind_cons_eq_ok id).mp h
      have hpart := identifiers_symbols (d := d) part hclause
      have hrest := identifiers_symbolsJoined (d := d) separator rest hothers
      rw [Condition.testsOf, List.flatMap_append, ← Condition.names, ← hpart, ← hrest]
      cases others with
      | nil => simp [symbolsJoined]
      | cons next others =>
          simp [symbolsJoined, List.filterMap_cons, Symbol.identifier?, Token.identifier?]

end

end Clause

-- Conditions that differ in literals alone have the same text, or none.
theorem sql_eq_of_withoutLiterals (d : Dialect) {condition other : Condition}
    (h : condition.withoutLiterals = other.withoutLiterals) :
    ((Fragment.ofCondition d condition).isOk = false ∧
        (Fragment.ofCondition d other).isOk = false) ∨
      ∃ fragment fragment', Fragment.ofCondition d condition = .ok fragment ∧
        Fragment.ofCondition d other = .ok fragment' ∧ fragment.sql = fragment'.sql ∧
        fragment.params.length = fragment'.params.length := by
  have hsame := Clause.toOption_withoutLiterals condition
  rw [h, Clause.toOption_withoutLiterals other] at hsame
  rw [Fragment.ofCondition, Fragment.ofCondition, Fragment.ofConditionAfter,
    Fragment.ofConditionAfter]
  cases hclause : Clause.ofCondition condition with
  | error e =>
      cases hother : Clause.ofCondition other with
      | error e' => exact .inl ⟨rfl, rfl⟩
      | ok clause' => simp [hclause, hother, Except.toOption] at hsame
  | ok clause =>
      cases hother : Clause.ofCondition other with
      | error e' => simp [hclause, hother, Except.toOption] at hsame
      | ok clause' =>
          have hform : clause'.withoutLiterals = clause.withoutLiterals := by
            simpa [hclause, hother, Except.toOption] using hsame
          have htexts : (clause.pieces d).map Piece.text? = (clause'.pieces d).map Piece.text? := by
            rw [← Clause.text?_mapLeaves (fun _ => .boolean false) (fun _ => "") clause,
              ← Clause.text?_mapLeaves (fun _ => .boolean false) (fun _ => "") clause']
            exact congrArg (fun clause => (clause.pieces d).map Piece.text?) hform.symm
          exact .inr ⟨_, _, rfl, rfl, Piece.render_eq_of_text? htexts 0⟩

-- The identifiers of a text are the names that its condition reads, and conditions that differ in
-- names alone have the same tokens otherwise.
theorem tokens_eq_of_withoutNames {d : Dialect} {condition other : Condition}
    (h : condition.withoutNames = other.withoutNames) {fragment : Fragment}
    (hfragment : Fragment.ofCondition d condition = .ok fragment) :
    ∃ tokens, lex d fragment.sql = some tokens ∧
      tokens.filterMap Token.identifier? = condition.names ∧
      ∃ fragment' tokens', Fragment.ofCondition d other = .ok fragment' ∧
        lex d fragment'.sql = some tokens' ∧
        tokens'.map Token.withoutName = tokens.map Token.withoutName := by
  obtain ⟨clause, hclause, rfl⟩ := Outcome.map_eq_ok.mp hfragment
  have hother := Clause.toOption_withoutNames other
  rw [← h, Clause.toOption_withoutNames, hclause] at hother
  obtain ⟨clause', hclause', hsame⟩ := Option.map_eq_some_iff.mp hother.symm
  cases hresult : Clause.ofCondition other with
  | error e => simp [hresult, Except.toOption] at hclause'
  | ok renamed =>
      obtain rfl : renamed = clause' := by simpa [hresult, Except.toOption] using hclause'
      refine ⟨_, (clause.says_pieces.solid 0).lex, ?_, _, _, congrArg (Except.map _) hresult,
        (renamed.says_pieces.solid 0).lex, ?_⟩
      · rw [Symbol.identifiers_tokens, Clause.identifiers_symbols condition hclause]
      · rw [Symbol.withoutName_tokens, Symbol.withoutName_tokens, Clause.withoutName_symbols,
          Clause.withoutName_symbols, hsame]

-- Neither literals nor names get out of their places. Other literals leave the text as it is, and
-- other names change nothing but the identifiers, which are the names whatever is in them.
theorem text_independent (d : Dialect) {condition relit renamed : Condition}
    (hliterals : condition.withoutLiterals = relit.withoutLiterals)
    (hnames : condition.withoutNames = renamed.withoutNames) :
    (((Fragment.ofCondition d condition).isOk = false ∧
        (Fragment.ofCondition d relit).isOk = false) ∨
      ∃ fragment fragment', Fragment.ofCondition d condition = .ok fragment ∧
        Fragment.ofCondition d relit = .ok fragment' ∧ fragment.sql = fragment'.sql ∧
        fragment.params.length = fragment'.params.length) ∧
    ∀ fragment, Fragment.ofCondition d condition = .ok fragment →
      ∃ tokens, lex d fragment.sql = some tokens ∧
        tokens.filterMap Token.identifier? = condition.names ∧
        ∃ fragment' tokens', Fragment.ofCondition d renamed = .ok fragment' ∧
          lex d fragment'.sql = some tokens' ∧
          tokens'.map Token.withoutName = tokens.map Token.withoutName :=
  ⟨sql_eq_of_withoutLiterals d hliterals, fun _ => tokens_eq_of_withoutNames hnames⟩

private def member (names : List String) : FieldRef :=
  ⟨names.map .member, .string, false, false, false⟩

private def searched (name other pattern : String) (values : List Value) : Condition :=
  .all [.oneOf (member [name, other]) values, .text (member [other]) .contains pattern,
    .not (.isEmpty (member [name]) .text)]

-- Names and literals that would be more than that without their quotes.
theorem text_independent_searched :
    let condition := searched "a\x60b" "x.y" "p" [.long 1, .long 2]
    let relit := searched "a\x60b" "x.y" "' OR 1 = 1" [.boolean true, .string "?"]
    let renamed := searched "\x60 OR ?" "WHERE" "p" [.long 1, .long 2]
    condition.withoutLiterals = relit.withoutLiterals ∧
      condition.withoutNames = renamed.withoutNames ∧
      ∃ fragment, Fragment.ofCondition .mysql condition = .ok fragment ∧
        ∃ tokens, lex .mysql fragment.sql = some tokens ∧
          tokens.filterMap Token.identifier? = ["a\x60b", "x.y", "x.y", "a\x60b", "a\x60b"] := by
  intro condition relit renamed
  have hliterals : condition.withoutLiterals = relit.withoutLiterals := rfl
  have hnames : condition.withoutNames = renamed.withoutNames := rfl
  obtain ⟨hrejected | ⟨fragment, -, hfragment, -⟩, htokens⟩ :=
    text_independent .mysql hliterals hnames
  · cases hrejected.1
  · obtain ⟨tokens, hlex, hidentifiers, -⟩ := htokens fragment hfragment
    exact ⟨hliterals, hnames, fragment, hfragment, tokens, hlex, hidentifiers⟩

end Sql

end Sieve

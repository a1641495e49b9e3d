import Mathlib.Data.List.Induction
import Sieve.Proofs.Outcome
import Sieve.Proofs.Sql.Reading
import Sieve.Sql.Query

-- Queries that are asked for one condition after the other.
namespace Sieve.Sql

namespace Query

-- A condition that is refused leaves the query as it was.
def attempt (query : Query) (condition : Condition) : Query :=
  (query.andWhere condition).toOption.getD query

def attempts (query : Query) (conditions : List Condition) : Query :=
  conditions.foldl attempt query

-- What the conditions of a chain come to that enter into the statement, the placeholders of each
-- numbered on from those before it.
def entered (d : Dialect) (place : Nat) : List Condition → List Fragment
  | [] => []
  | condition :: rest =>
    if isTrivial condition then entered d place rest
    else
      match Fragment.ofConditionAfter d place condition with
      | .ok fragment => fragment :: entered d (place + fragment.params.length) rest
      | .error _ => entered d place rest

-- What such a condition comes to on its own.
def own? (d : Dialect) (condition : Condition) : Option Fragment :=
  if isTrivial condition then none else (Fragment.ofCondition d condition).toOption

-- The clause that a condition adds to a query.
def clause? (condition : Condition) : Option Clause :=
  if isTrivial condition then none else (Clause.ofCondition condition).toOption

def add (query : Query) (clause : Clause) : Query :=
  { query with
    sql := query.sql ++ (if query.hasWhere then " AND " else " WHERE ") ++
      Piece.render query.dialect query.params.length (clause.pieces query.dialect)
    params := query.params ++ Piece.params (clause.pieces query.dialect)
    hasWhere := true }

theorem attempt_eq (query : Query) (condition : Condition) :
    query.attempt condition = ((clause? condition).map query.add).getD query := by
  rw [attempt, andWhere, clause?]
  split
  · rfl
  · cases hclause : Clause.ofCondition condition with
    | error e => simp [Fragment.ofConditionAfter, hclause, Except.map, Except.toOption]
    | ok clause => simp [Fragment.ofConditionAfter, hclause, Except.map, Except.toOption, add]

theorem attempts_eq (query : Query) (conditions : List Condition) :
    query.attempts conditions = (conditions.filterMap clause?).foldl add query := by
  rw [attempts, List.foldl_filterMap]
  congr
  funext query condition
  rw [attempt_eq]
  cases clause? condition <;> rfl

end Query

-- Texts behind WHERE, with AND between them.
def whereText (texts : List String) : String :=
  if texts.isEmpty then "" else " WHERE " ++ " AND ".intercalate texts

def whereSymbols (readings : List (List Symbol)) : List Symbol :=
  if readings.isEmpty then []
  else Symbol.said [.word "WHERE"] ++ (Symbol.said [.word "AND"]).intercalate readings

theorem whereText_concat (texts : List String) (text : String) :
    whereText (texts ++ [text]) =
      whereText texts ++ (if texts.isEmpty then " WHERE " else " AND ") ++ text := by
  cases texts with
  | nil => simp [whereText]
  | cons first rest =>
      have hjoined : " AND ".intercalate (first :: (rest ++ [text])) =
          " AND ".intercalate (first :: rest) ++ " AND " ++ text := by
        rw [← List.cons_append, String.intercalate_append_of_ne_nil (by simp) (by simp),
          String.intercalate_singleton]
      simp [whereText, hjoined, String.append_assoc]

theorem whereSymbols_concat (readings : List (List Symbol)) (reading : List Symbol) :
    whereSymbols (readings ++ [reading]) = whereSymbols readings ++
      Symbol.said [.word (if readings.isEmpty then "WHERE" else "AND")] ++ reading := by
  cases readings with
  | nil => simp [whereSymbols]
  | cons first rest =>
      have hjoined (sep : List Symbol) : sep.intercalate (first :: (rest ++ [reading])) =
          sep.intercalate (first :: rest) ++ sep ++ reading := by
        induction rest generalizing first with
        | nil => simp
        | cons next rest ih => simpa [List.append_assoc] using ih next
      simp [whereSymbols, hjoined]

namespace Query

-- Clauses with the placeholders of each numbered on from those before it.
def numbered (d : Dialect) (place : Nat) : List Clause → List Fragment
  | [] => []
  | clause :: rest =>
    ⟨Piece.render d place (clause.pieces d), Piece.params (clause.pieces d)⟩ ::
      numbered d (place + (Piece.params (clause.pieces d)).length) rest

variable {d : Dialect}

theorem entered_eq (place : Nat) (conditions : List Condition) :
    entered d place conditions = numbered d place (conditions.filterMap clause?) := by
  induction conditions generalizing place with
  | nil => rfl
  | cons condition rest ih =>
      rw [entered, List.filterMap_cons, clause?]
      split
      · exact ih place
      · cases hclause : Clause.ofCondition condition with
        | error e => simp [Fragment.ofConditionAfter, hclause, Except.map, Except.toOption, ih]
        | ok clause =>
            simp [Fragment.ofConditionAfter, hclause, Except.map, Except.toOption, numbered, ih]

theorem own?_eq (condition : Condition) :
    own? d condition = (clause? condition).map fun clause =>
      ⟨Piece.render d 0 (clause.pieces d), Piece.params (clause.pieces d)⟩ := by
  rw [own?, clause?]
  split
  · rfl
  · rw [Fragment.ofCondition, Fragment.ofConditionAfter]
    cases Clause.ofCondition condition <;> rfl

theorem numbered_concat (place : Nat) (clauses : List Clause) (clause : Clause) :
    numbered d place (clauses ++ [clause]) = numbered d place clauses ++
      [⟨Piece.render d
          (place + (clauses.flatMap fun clause => Piece.params (clause.pieces d)).length)
          (clause.pieces d), Piece.params (clause.pieces d)⟩] := by
  induction clauses generalizing place with
  | nil => rfl
  | cons first rest ih =>
      rw [List.cons_append, numbered, ih, numbered, List.cons_append, List.flatMap_cons,
        List.length_append, Nat.add_assoc]

theorem isEmpty_numbered (place : Nat) (clauses : List Clause) :
    (numbered d place clauses).isEmpty = clauses.isEmpty := by
  cases clauses <;> rfl

-- What clauses behind each other say.
def whereClauses (d : Dialect) (clauses : List Clause) : List Symbol :=
  whereSymbols (clauses.map (Clause.symbols d))

-- A query that has come from a statement to some clauses.
structure Chained (d : Dialect) (base : String) (clauses : List Clause) (query : Query) : Prop where
  dialect : query.dialect = d
  hasWhere : query.hasWhere = !clauses.isEmpty
  sql : query.sql = base ++ whereText ((numbered d 0 clauses).map Fragment.sql)
  params : query.params = clauses.flatMap fun clause => Piece.params (clause.pieces d)
  values : query.params = Symbol.values (whereClauses d clauses)
  lexed : ∀ tokens, lex d base = some tokens →
    lex d query.sql = some (tokens ++ Symbol.tokens d 0 (whereClauses d clauses))

namespace Chained

variable {base : String} {clauses : List Clause} {query : Query}

theorem start (d : Dialect) (base : String) : Chained d base [] ⟨base, [], d, false⟩ where
  dialect := rfl
  hasWhere := rfl
  sql := by simp [whereText, numbered]
  params := rfl
  values := rfl
  lexed := by simp [whereClauses, whereSymbols, Symbol.tokens]

-- The new clause stands behind a word, and its parameters behind those that are there.
theorem add (h : Chained d base clauses query) (clause : Clause) :
    Chained d base (clauses ++ [clause]) (query.add clause) := by
  obtain ⟨rfl, hwhere, hsql, hparams, hvalues, hlexed⟩ := h
  have hword : Solid query.dialect (if query.hasWhere then " AND " else " WHERE ")
      [.word (if query.hasWhere then "AND" else "WHERE")] := by
    cases query.hasWhere <;> exact solid_of_walks (by decide)
  have hclause := clause.says_pieces (d := query.dialect)
  have hsymbols : whereClauses query.dialect (clauses ++ [clause]) =
      whereClauses query.dialect clauses ++
        Symbol.said [.word (if query.hasWhere then "AND" else "WHERE")] ++
          clause.symbols query.dialect := by
    rw [whereClauses, List.map_append, List.map_singleton, whereSymbols_concat, List.isEmpty_map,
      hwhere]
    cases clauses.isEmpty <;> rfl
  refine ⟨rfl, by simp [Query.add], ?_, ?_, ?_, fun tokens htokens => ?_⟩
  · rw [numbered_concat, List.map_append, List.map_singleton, whereText_concat, ← hparams,
      List.isEmpty_map, isEmpty_numbered, Query.add, hsql, hwhere, Nat.zero_add]
    cases clauses.isEmpty <;> simp [String.append_assoc]
  · rw [List.flatMap_append, List.flatMap_singleton, ← hparams]
    rfl
  · rw [hsymbols, Symbol.values_append, Symbol.values_append, ← hvalues, Symbol.values_said,
      ← hclause.values, List.append_nil]
    rfl
  · have hlast := lex_append (lex_append (hlexed tokens htokens) hword)
      (hclause.solid query.params.length)
    have hbefore : Symbol.values (whereClauses query.dialect clauses ++
        Symbol.said [.word (if query.hasWhere then "AND" else "WHERE")]) = query.params := by
      rw [Symbol.values_append, Symbol.values_said, List.append_nil, hvalues]
    rw [hsymbols, Symbol.tokens_append, hbefore, Symbol.tokens_append, Symbol.tokens_said,
      Nat.zero_add, ← List.append_assoc, ← List.append_assoc]
    exact hlast

theorem of_clauses (d : Dialect) (base : String) (clauses : List Clause) :
    Chained d base clauses (clauses.foldl Query.add ⟨base, [], d, false⟩) := by
  induction clauses using List.reverseRecOn with
  | nil => exact start d base
  | append_singleton clauses clause ih =>
      rw [List.foldl_concat]
      exact ih.add clause

end Chained

theorem filled_whereClauses (clauses : List Clause) :
    Symbol.filled (whereClauses d clauses) = true := by
  induction clauses using List.reverseRecOn with
  | nil => rfl
  | append_singleton clauses clause ih =>
      rw [whereClauses] at ih ⊢
      rw [List.map_append, List.map_singleton, whereSymbols_concat]
      simp [ih, Token.isPlaceholder, clause.filled_symbols]

-- Placeholders and parameters go together, however many conditions a query is asked for. The
-- conditions that have a form in SQL stand behind WHERE in order, with their parameters in order.
-- Where the statement that the query starts from has tokens and no placeholders, the placeholders
-- of the query are those of its parameters in order, and with its parameters it says what each
-- condition says with its own.
theorem attempts_aligned (d : Dialect) (base : String) (conditions : List Condition) :
    let query := (new base d).attempts conditions
    let own := conditions.filterMap (own? d)
    query.sql = String.ofList (Text.trimEnd base.toList) ++
        whereText ((entered d 0 conditions).map Fragment.sql) ∧
      query.params = own.flatMap Fragment.params ∧
      ∀ tokens, lex d base = some tokens → (∀ token ∈ tokens, token.isPlaceholder = false) →
        (∃ all, lex d query.sql = some all ∧ all.filter Token.isPlaceholder =
          (List.range query.params.length).map d.placeholderToken) ∧
        ∃ readings, own.map (Fragment.read d) = readings.map some ∧
          Fragment.read d ⟨query.sql, query.params⟩ =
            some (Symbol.said tokens ++ whereSymbols readings) := by
  intro query own
  have hquery : Chained d (String.ofList (Text.trimEnd base.toList))
      (conditions.filterMap clause?) query := by
    have heq : query = (conditions.filterMap clause?).foldl add (new base d) :=
      attempts_eq (new base d) conditions
    rw [heq]
    exact Chained.of_clauses d _ (conditions.filterMap clause?)
  have hown : own = (conditions.filterMap clause?).map fun clause =>
      ⟨Piece.render d 0 (clause.pieces d), Piece.params (clause.pieces d)⟩ := by
    rw [List.map_filterMap]
    exact List.filterMap_congr fun condition _ => own?_eq condition
  refine ⟨?_, ?_, fun tokens hbase htokens => ?_⟩
  · rw [entered_eq]
    exact hquery.sql
  · rw [hquery.params, hown, List.flatMap_map]
  have hlexed := hquery.lexed tokens (lex_trimEnd hbase)
  have hwhere := filled_whereClauses (d := d) (conditions.filterMap clause?)
  refine ⟨⟨_, hlexed, ?_⟩, (conditions.filterMap clause?).map (Clause.symbols d), ?_, ?_⟩
  · have hnone : tokens.filter Token.isPlaceholder = [] :=
      List.filter_eq_nil_iff.mpr fun token htoken => by simp [htokens token htoken]
    rw [List.filter_append, hnone, Symbol.placeholders_tokens d 0 hwhere, ← hquery.values,
      List.range_eq_range', List.nil_append]
  · rw [hown, List.map_map, List.map_map]
    refine List.map_congr_left fun clause _ => ?_
    have hclause := clause.says_pieces (d := d)
    have hfill := fill_tokens d (clause.filled_symbols (d := d)) []
    rw [List.nil_append, ← hclause.values] at hfill
    simpa [Fragment.read, (hclause.solid 0).lex] using hfill
  · have hfilled : Symbol.filled
        (Symbol.said tokens ++ whereClauses d (conditions.filterMap clause?)) = true := by
      simpa [Symbol.filled_said, hwhere] using htokens
    have hfill := fill_tokens d hfilled []
    rw [List.nil_append, Symbol.values_append, Symbol.values_said, List.nil_append,
      ← hquery.values, Symbol.tokens_append, Symbol.tokens_said, Symbol.values_said] at hfill
    simpa [Fragment.read, hlexed, whereClauses] using hfill

-- What looks like a placeholder between quotes is none.
private def report : String :=
  "SELECT 'why $1?' FROM \"t$2\"  "

private def reportTokens : List Token :=
  [.word "SELECT", .literal "why $1?", .word "FROM", .identifier "t$2"]

private def column (name : String) (kind : Kind) : FieldRef :=
  ⟨[.member name], kind, false, false, false⟩

-- The second asks for nothing, and the third has no form in SQL.
private def asks : List Condition :=
  [.oneOf (column "id" .long) [.long 1, .long 2], .constant true,
    .anyElement (column "tags" .string) (.constant true),
    .isEmpty (column "a\"b" .string) .text, .between (column "price" .long) (.long 3) (.long 4)]

theorem attempts_aligned_report :
    lex .postgres report = some reportTokens ∧
      (∀ token ∈ reportTokens, token.isPlaceholder = false) ∧
      ((new report .postgres).attempts asks).params.length = 4 ∧
      ∃ all, lex .postgres ((new report .postgres).attempts asks).sql = some all ∧
        all.filter Token.isPlaceholder =
          [.placeholder (some 1), .placeholder (some 2), .placeholder (some 3),
            .placeholder (some 4)] := by
  have hbase : lex .postgres report = some reportTokens := by decide
  have htokens : ∀ token ∈ reportTokens, token.isPlaceholder = false := by decide
  obtain ⟨hplaceholders, -⟩ :=
    (attempts_aligned .postgres report asks).2.2 reportTokens hbase htokens
  exact ⟨hbase, htokens, rfl, hplaceholders⟩

end Query

end Sieve.Sql
